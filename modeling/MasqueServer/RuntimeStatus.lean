import MasqueServer.ReloadSafety

/-!
# The status of a running server

A running server publishes digests of the sections it was configured with. The status command loads
the configuration file and compares.
-/
namespace MasqueServer

open List Option Table

/-! ### Comparing a file with the record -/

inductive SectionState
  | applied
  | reloadRequired
  | restartRequired
  deriving DecidableEq

inductive StatusError
  | version
  | unresolved
  | otherFile
  | encoding
  | schema
  | missing
  deriving DecidableEq

/-- A configuration together with the fingerprint of its certificates. -/
structure Loaded where
  config : ServerConfig
  fingerprint : Bytes

def sectionState (loaded disk : RecordedSection) : SectionState :=
  if loaded.digest = disk.digest then .applied
  else if disk.reloadable then .reloadRequired
  else .restartRequired

def ConfigSnapshot.compareSection (snapshot : ConfigSnapshot)
    (disk : Sigma fun _ : String => RecordedSection) :
    Except StatusError (String × SectionState) := do
  let loaded ← (snapshot.sections.get disk.1).elim (.error .missing) .ok
  .ok (disk.1, sectionState loaded disk.2)

def ConfigSnapshot.compare (status : StatusLibrary) (canonicalize : String → Option Bytes)
    (version : String) (snapshot : ConfigSnapshot) (path : String) (disk : Loaded) :
    Except StatusError (List (String × SectionState)) :=
  if snapshot.version ≠ version then .error .version
  else do
    let resolved ← (canonicalize path).elim (.error .unresolved) .ok
    if snapshot.configFile ≠ some (status.sign snapshot.key resolved) then .error .otherFile
    else do
      let recorded ← (MasqueServer.sections status snapshot.key disk.config disk.fingerprint).elim
        (.error .encoding) .ok
      if snapshot.sections.size ≠ recorded.size then .error .schema
      else recorded.entries.mapM snapshot.compareSection

/-! ### Values of sections -/

def Loaded.value (l : Loaded) (name : String) : Option SectionValue :=
  (sectionValues l.config l.fingerprint).lookup name

def sectionNames : List String :=
  ["listeners", "clients", "tls", "ip_proxy", "basic_credentials", "tls_identity", "server", "quic",
    "http2", "tcp_proxy", "udp_proxy", "observability"]

lemma map_fst_sectionValues (config : ServerConfig) (tls : Bytes) :
    (sectionValues config tls).map Prod.fst = sectionNames := rfl

lemma nodup_sectionNames : sectionNames.Nodup := by decide

lemma isSome_lookup_iff {β : Type} (l : List (String × β)) (name : String) :
    (l.lookup name).isSome = true ↔ name ∈ l.map Prod.fst := by
  induction l with
  | nil => simp
  | cons entry l ih =>
    rw [lookup_cons]
    by_cases h : name = entry.1
    · simp [h]
    · have hbeq : (name == entry.1) = false := by simpa using h
      simp only [hbeq, map_cons, mem_cons, h, false_or]
      exact ih

lemma Loaded.isSome_value_iff (l : Loaded) (name : String) :
    (l.value name).isSome = true ↔ name ∈ sectionNames := by
  rw [Loaded.value, isSome_lookup_iff, map_fst_sectionValues]

section Records

variable (status : StatusLibrary) (key : Bytes)

def recordOf (name : String) (value : SectionValue) : Option RecordedSection :=
  (status.encode value).map fun bytes => ⟨status.sign key bytes, reloadable name⟩

def RecordsValues (recorded : Table String RecordedSection)
    (value : String → Option SectionValue) : Prop :=
  ∀ name, recorded.get name = (value name).bind (recordOf status key name) ∧
    ∀ v, value name = some v → ∃ r, recordOf status key name v = some r

variable {status key}

lemma get_foldlM_sections {l : List (String × SectionValue)} (hl : (l.map Prod.fst).Nodup)
    {before recorded : Table String RecordedSection}
    (h : l.foldlM (fun recorded (name, value) => (status.encode value).map fun bytes =>
      recorded.put name ⟨status.sign key bytes, reloadable name⟩) before = some recorded)
    (name : String) :
    (∀ v, l.lookup name = some v →
      ∃ r, recordOf status key name v = some r ∧ recorded.get name = some r) ∧
      (l.lookup name = none → recorded.get name = before.get name) := by
  induction l generalizing before with
  | nil =>
    cases h
    exact ⟨nofun, fun _ => rfl⟩
  | cons entry l ih =>
    obtain ⟨first, value⟩ := entry
    rw [map_cons, nodup_cons] at hl
    rw [foldlM_cons, bind_eq_bind, bind_eq_some_iff] at h
    obtain ⟨next, hnext, hrest⟩ := h
    obtain ⟨bytes, hbytes, rfl⟩ := map_eq_some_iff.mp hnext
    obtain ⟨hfound, hother⟩ := ih hl.2 hrest
    by_cases heq : name = first
    · subst heq
      have habsent : l.lookup name = none := by
        rw [← not_isSome_iff_eq_none, isSome_lookup_iff]
        exact hl.1
      have hget := hother habsent
      rw [get_put, if_pos rfl] at hget
      refine ⟨fun v hv => ⟨_, ?_, hget⟩, fun hnone => by simp at hnone⟩
      rw [lookup_cons_self, some.injEq] at hv
      subst hv
      rw [recordOf, hbytes]
      rfl
    · have hbeq : (name == first) = false := by simpa using heq
      rw [lookup_cons, hbeq]
      refine ⟨hfound, fun hnone => ?_⟩
      rw [hother hnone, get_put, if_neg heq]

lemma recordsValues_of_sections {disk : Loaded} {recorded : Table String RecordedSection}
    (h : sections status key disk.config disk.fingerprint = some recorded) :
    RecordsValues status key recorded disk.value := by
  intro name
  have hnodup : ((sectionValues disk.config disk.fingerprint).map Prod.fst).Nodup :=
    nodup_sectionNames
  obtain ⟨hfound, hother⟩ := get_foldlM_sections hnodup h name
  cases hvalue : disk.value name with
  | none =>
    rw [hother hvalue]
    exact ⟨rfl, nofun⟩
  | some v =>
    obtain ⟨r, hr, hget⟩ := hfound v hvalue
    rw [hget, bind_some, hr]
    refine ⟨rfl, fun v' hv' => ⟨r, ?_⟩⟩
    rw [← some.inj hv', hr]

def DigestsDiffer (status : StatusLibrary) : Prop :=
  ∀ key name (l l' : Loaded) v v' bytes bytes', l.value name = some v → l'.value name = some v' →
    status.encode v = some bytes → status.encode v' = some bytes' →
    status.sign key bytes = status.sign key bytes' → v = v'

lemma recordOf_eq_some {name : String} {v : SectionValue} {r : RecordedSection}
    (h : recordOf status key name v = some r) :
    ∃ bytes, status.encode v = some bytes ∧ r = ⟨status.sign key bytes, reloadable name⟩ := by
  obtain ⟨bytes, hbytes, rfl⟩ := map_eq_some_iff.mp h
  exact ⟨bytes, hbytes, rfl⟩

lemma digest_eq_iff (hdigests : DigestsDiffer status) {name : String} {l l' : Loaded}
    {v v' : SectionValue} {r r' : RecordedSection} (hv : l.value name = some v)
    (hv' : l'.value name = some v') (h : recordOf status key name v = some r)
    (h' : recordOf status key name v' = some r') : r.digest = r'.digest ↔ v = v' := by
  obtain ⟨bytes, hbytes, rfl⟩ := recordOf_eq_some h
  obtain ⟨bytes', hbytes', rfl⟩ := recordOf_eq_some h'
  refine ⟨hdigests key name l l' v v' bytes bytes' hv hv' hbytes hbytes', ?_⟩
  rintro rfl
  rw [hbytes, some.injEq] at hbytes'
  rw [hbytes']

/-- A report on all sections: of values in effect against those of a file. -/
structure Reports (value disk : String → Option SectionValue)
    (report : List (String × SectionState)) : Prop where
  nodup : (report.map Prod.fst).Nodup
  names : ∀ name, name ∈ report.map Prod.fst ↔ name ∈ sectionNames
  applied : ∀ name state, (name, state) ∈ report → (state = .applied ↔ value name = disk name)
  reloadRequired : ∀ name state, (name, state) ∈ report →
    (state = .reloadRequired ↔ value name ≠ disk name ∧ reloadable name = true)

lemma sectionState_applied {loaded disk : RecordedSection} :
    sectionState loaded disk = .applied ↔ loaded.digest = disk.digest := by
  unfold sectionState
  split_ifs with h <;> simp [h]

lemma sectionState_reloadRequired {loaded disk : RecordedSection} :
    sectionState loaded disk = .reloadRequired ↔
      loaded.digest ≠ disk.digest ∧ disk.reloadable = true := by
  unfold sectionState
  by_cases h : loaded.digest = disk.digest
  · simp [h]
  · cases disk.reloadable <;> simp [h]

variable {snapshot : ConfigSnapshot} {value : String → Option SectionValue} {disk : Loaded}
  {canonicalize : String → Option Bytes} {version path : String}

lemma get_isSome_iff {recorded : Table String RecordedSection}
    (h : RecordsValues status key recorded value)
    (hnames : ∀ name, (value name).isSome = true ↔ name ∈ sectionNames) (name : String) :
    recorded.contains name = true ↔ name ∈ sectionNames := by
  rw [← hnames, Table.contains, (h name).1]
  cases hv : value name with
  | none => rfl
  | some v =>
    obtain ⟨r, hr⟩ := (h name).2 v hv
    rw [bind_some, hr]
    rfl

lemma compare_ok_iff {report : List (String × SectionState)} :
    snapshot.compare status canonicalize version path disk = .ok report ↔
      snapshot.version = version ∧
      (∃ resolved, canonicalize path = some resolved ∧
        snapshot.configFile = some (status.sign snapshot.key resolved)) ∧
      ∃ recorded, sections status snapshot.key disk.config disk.fingerprint = some recorded ∧
        snapshot.sections.size = recorded.size ∧
        recorded.entries.mapM snapshot.compareSection = .ok report := by
  unfold ConfigSnapshot.compare
  by_cases hversion : snapshot.version = version
  · rw [if_neg (not_not.mpr hversion), bind_ok_iff]
    simp only [elim_ok_iff, hversion, true_and]
    constructor
    · rintro ⟨resolved, hresolved, h⟩
      split_ifs at h with hfile
      rw [bind_ok_iff] at h
      obtain ⟨recorded, hrecorded, h⟩ := h
      split_ifs at h with hsize
      exact ⟨⟨resolved, hresolved, not_not.mp hfile⟩, recorded, elim_ok_iff.mp hrecorded,
        not_not.mp hsize, h⟩
    · rintro ⟨⟨resolved, hresolved, hfile⟩, recorded, hrecorded, hsize, h⟩
      refine ⟨resolved, hresolved, ?_⟩
      rw [if_neg (not_not.mpr hfile), bind_ok_iff]
      refine ⟨recorded, elim_ok_iff.mpr hrecorded, ?_⟩
      rw [if_neg (not_not.mpr hsize)]
      exact h
  · rw [if_pos hversion]
    refine ⟨fun h => ?_, fun h => absurd h.1 hversion⟩
    cases h

theorem reports_of_compare (hdigests : DigestsDiffer status)
    (hvalue : RecordsValues status snapshot.key snapshot.sections value)
    (hloaded : ∀ name, ∃ l : Loaded, value name = l.value name)
    {report : List (String × SectionState)}
    (h : snapshot.compare status canonicalize version path disk = .ok report) :
    Reports value disk.value report := by
  obtain ⟨-, -, recorded, hrecorded, -, h⟩ := compare_ok_iff.mp h
  have hdisk := recordsValues_of_sections hrecorded
  have hkeys : report.map Prod.fst = recorded.keys := by
    have hall := (mapM_ok_iff _ _ _).mp h
    have hfst : List.Forall₂ (fun entry (pair : String × SectionState) => entry.1 = pair.1)
        recorded.entries report := by
      refine hall.imp fun entry pair hpair => ?_
      obtain ⟨loaded, -, hpair⟩ := bind_ok_iff.mp hpair
      rw [← Except.ok.inj hpair]
    exact (List.forall₂_eq_eq_eq ▸ List.forall₂_map_left_iff.mpr
      (List.forall₂_map_right_iff.mpr hfst) : recorded.entries.map Sigma.fst = _).symm
  have hstates : ∀ name state, (name, state) ∈ report → ∃ r r',
      (r.digest = r'.digest ↔ value name = disk.value name) ∧
      r'.reloadable = reloadable name ∧ state = sectionState r r' := by
    intro name state hmem
    obtain ⟨entry, hentry, pair, hpair, rfl⟩ :=
      (exists_mem_of_mapM h (· = (name, state))).mp ⟨_, hmem, rfl⟩
    obtain ⟨loaded, hloaded, hpair⟩ := bind_ok_iff.mp hpair
    rw [elim_ok_iff, (hvalue _).1, bind_eq_some_iff] at hloaded
    obtain ⟨v, hv, hr⟩ := hloaded
    have hget := mem_entries.mp hentry
    rw [(hdisk _).1, bind_eq_some_iff] at hget
    obtain ⟨v', hv', hr'⟩ := hget
    cases hpair
    obtain ⟨l, hl⟩ := hloaded entry.1
    refine ⟨loaded, entry.2, ?_, ?_, rfl⟩
    · rw [digest_eq_iff hdigests (hl ▸ hv) hv' hr hr', hv, hv', some.injEq]
    · obtain ⟨bytes, -, hrecord⟩ := recordOf_eq_some hr'
      rw [hrecord]
  refine ⟨?_, fun name => ?_, fun name state hmem => ?_, fun name state hmem => ?_⟩
  · rw [hkeys]
    exact recorded.keys_nodup
  · rw [hkeys, ← contains_iff_mem_keys]
    exact get_isSome_iff hdisk disk.isSome_value_iff name
  · obtain ⟨r, r', hdigest, -, rfl⟩ := hstates name state hmem
    rw [sectionState_applied, hdigest]
  · obtain ⟨r, r', hdigest, hreloadable, rfl⟩ := hstates name state hmem
    rw [sectionState_reloadRequired, ne_eq, hdigest, hreloadable]

theorem exists_compare (hvalue : RecordsValues status snapshot.key snapshot.sections value)
    (hnames : ∀ name, (value name).isSome = true ↔ name ∈ sectionNames) {resolved : Bytes}
    (hversion : snapshot.version = version) (hpath : canonicalize path = some resolved)
    (hfile : snapshot.configFile = some (status.sign snapshot.key resolved))
    {recorded : Table String RecordedSection}
    (hrecorded : sections status snapshot.key disk.config disk.fingerprint = some recorded) :
    ∃ report, snapshot.compare status canonicalize version path disk = .ok report := by
  have hdisk := recordsValues_of_sections hrecorded
  have hloaded := get_isSome_iff hvalue hnames
  have hrecordedNames := get_isSome_iff hdisk disk.isSome_value_iff
  have hsize : snapshot.sections.size = recorded.size := by
    apply le_antisymm
    · exact size_le_of_contains fun name hname =>
        (hrecordedNames name).mpr ((hloaded name).mp hname)
    · exact size_le_of_contains fun name hname =>
        (hloaded name).mpr ((hrecordedNames name).mp hname)
  obtain ⟨report, hreport⟩ : ∃ report,
      recorded.entries.mapM snapshot.compareSection = .ok report := by
    rw [exists_mapM_ok_iff]
    intro entry hentry
    have hpresent : recorded.contains entry.1 = true :=
      Table.contains_iff.mpr ⟨entry.2, mem_entries.mp hentry⟩
    obtain ⟨loaded, hget⟩ := Table.contains_iff.mp
      ((hloaded entry.1).mpr ((hrecordedNames entry.1).mp hpresent))
    exact ⟨_, bind_ok_iff.mpr ⟨loaded, elim_ok_iff.mpr hget, rfl⟩⟩
  exact ⟨report, compare_ok_iff.mpr
    ⟨hversion, ⟨resolved, hpath, hfile⟩, recorded, hrecorded, hsize, hreport⟩⟩

end Records

/-! ### Values in effect -/

def inEffect (start loaded : Loaded) (name : String) : Option SectionValue :=
  if reloadable name then loaded.value name else start.value name

lemma mem_sectionNames_of_reloadable {name : String} (h : reloadable name = true) :
    name ∈ sectionNames := by
  simp only [reloadable, Bool.or_eq_true, decide_eq_true_eq] at h
  obtain (rfl | rfl) | rfl := h <;> decide

lemma isSome_inEffect_iff (start loaded : Loaded) (name : String) :
    (inEffect start loaded name).isSome = true ↔ name ∈ sectionNames := by
  unfold inEffect
  split_ifs
  · exact loaded.isSome_value_iff name
  · exact start.isSome_value_iff name

lemma exists_inEffect_eq (start loaded : Loaded) (name : String) :
    ∃ l : Loaded, inEffect start loaded name = l.value name := by
  unfold inEffect
  split_ifs
  · exact ⟨loaded, rfl⟩
  · exact ⟨start, rfl⟩

def Settles (before after : List (String × SectionState)) : Prop :=
  (∀ name, (name, .reloadRequired) ∈ before → (name, .applied) ∈ after) ∧
    ∀ name, (name, .reloadRequired) ∉ after

theorem settles_iff {start : Loaded} {file : ServerConfig} {tls tls' : Bytes}
    {paths : TlsSection} {value : String → Option SectionValue}
    {before after : List (String × SectionState)}
    (hbefore : Reports value (⟨{ file with tls := paths }, tls'⟩ : Loaded).value before)
    (hafter : Reports (inEffect start ⟨file, tls⟩)
      (⟨{ file with tls := paths }, tls'⟩ : Loaded).value after) :
    Settles before after ↔ tls = tls' := by
  constructor
  · rintro ⟨-, hnone⟩
    by_contra hne
    obtain ⟨⟨name, state⟩, hmem, rfl⟩ :=
      List.mem_map.mp ((hafter.names "tls_identity").mpr (by decide))
    have hstate := (hafter.reloadRequired _ _ hmem).mpr ⟨fun h => hne ?_, rfl⟩
    · exact hnone _ (hstate ▸ hmem)
    · cases h
      rfl
  · rintro rfl
    have hsame : ∀ name, reloadable name = true →
        inEffect start ⟨file, tls⟩ name =
          (⟨{ file with tls := paths }, tls⟩ : Loaded).value name := by
      intro name hname
      rw [inEffect, if_pos hname]
      simp only [reloadable, Bool.or_eq_true, decide_eq_true_eq] at hname
      obtain (rfl | rfl) | rfl := hname <;> rfl
    refine ⟨fun name hmem => ?_, fun name hmem => ?_⟩
    · have hname := ((hbefore.reloadRequired _ _ hmem).mp rfl).2
      obtain ⟨⟨_, state⟩, hmem', rfl⟩ := List.mem_map.mp
        ((hafter.names name).mpr (mem_sectionNames_of_reloadable hname))
      rwa [← (hafter.applied _ _ hmem').mpr (hsame _ hname)]
    · obtain ⟨hne, hname⟩ := (hafter.reloadRequired _ _ hmem).mp rfl
      exact hne (hsame name hname)

section Runs

variable {Key Digest Certificate PrivateKey : Type}
  (lib : Libraries Key Digest Certificate PrivateKey)

def loadedAtStart (startup : ServerConfig) (s : Shared Key Certificate PrivateKey) : Loaded :=
  ⟨startup, s.tls.identity.fingerprint⟩

def loadedBy (found : Surroundings Key) (s : Shared Key Certificate PrivateKey) :
    Option Loaded := do
  let reload ← s.configReload
  let text ← found.readToString reload.path
  let config ← lib.parseToml text
  let identity ← (TlsIdentity.load lib.tls found.readFile reload.tls).toOption
  return ⟨config, identity.fingerprint⟩

def loadedAfter (s : Shared Key Certificate PrivateKey) (loaded : Loaded) :
    ServiceEvent Key → Loaded
  | .tunnel _ => loaded
  | .reload found =>
    match (reloadConfiguration lib found).perform s with
    | (.ok _, _) => (loadedBy lib found s).getD loaded
    | (.error _, _) => loaded

def lastLoaded : Shared Key Certificate PrivateKey → Loaded → List (ServiceEvent Key) → Loaded
  | _, loaded, [] => loaded
  | s, loaded, e :: events =>
    match s.step lib e with
    | none => loaded
    | some s' => lastLoaded s' (loadedAfter lib s loaded e) events

variable {lib}
variable {s s' : Shared Key Certificate PrivateKey} {startup file : ServerConfig}
  {configPath : Option String} {found : Surroundings Key} {start loaded : Loaded}

/-- The record of a running server is that of the values in effect. -/
structure Evident (lib : Libraries Key Digest Certificate PrivateKey) (startup : ServerConfig)
    (configPath : Option String) (start loaded : Loaded)
    (s : Shared Key Certificate PrivateKey) : Prop where
  running : s.Running startup configPath
  records : RecordsValues lib.status s.loadedConfig.key s.loadedConfig.sections
    (inEffect start loaded)

lemma loadedBy_of_applied (hs : s.Running startup configPath)
    (h : s.Applied lib found startup configPath file s') :
    ∃ identity, TlsIdentity.load lib.tls found.readFile startup.tls = .ok identity ∧
      loadedBy lib found s = some ⟨file, identity.fingerprint⟩ := by
  obtain ⟨path, text, rfl, htext, hfile⟩ := h.read
  obtain ⟨identity, hidentity, -⟩ := h.tls
  refine ⟨identity, hidentity, ?_⟩
  simp [loadedBy, hs.settings, configReloadSettings, htext, hfile, hidentity, Except.toOption]

lemma filter_recordOf {name : String} {value : Option SectionValue} {status : StatusLibrary}
    {key : Bytes} :
    (value.bind (recordOf status key name)).filter (·.reloadable) =
      if reloadable name then value.bind (recordOf status key name) else none := by
  cases hrecord : value.bind (recordOf status key name) with
  | none => simp
  | some r =>
    obtain ⟨v, -, hr⟩ := bind_eq_some_iff.mp hrecord
    obtain ⟨bytes, -, rfl⟩ := recordOf_eq_some hr
    rw [filter_some]

variable (h : Evident lib startup configPath start loaded s)
include h

lemma Evident.applied (happlied : s.Applied lib found startup configPath file s')
    {identity : TlsIdentity Certificate PrivateKey}
    (hidentity : TlsIdentity.load lib.tls found.readFile startup.tls = .ok identity) :
    Evident lib startup configPath start ⟨file, identity.fingerprint⟩ s' := by
  refine ⟨happlied.running h.running, fun name => ?_⟩
  obtain ⟨identity', hidentity', -, recorded, hrecorded, hkept, hget⟩ := happlied.tls
  obtain rfl : identity = identity' := Except.ok.inj (hidentity.symm.trans hidentity')
  have hkey : s'.loadedConfig.key = s.loadedConfig.key := by rw [hkept]
  obtain ⟨hfile, hencoded⟩ :=
    @recordsValues_of_sections lib.status _ ⟨file, identity.fingerprint⟩ _ hrecorded name
  obtain ⟨hold, holdEncoded⟩ := h.records name
  rw [hkey, hget, hfile, hold, filter_recordOf]
  unfold inEffect at holdEncoded ⊢
  cases hreload : reloadable name with
  | false =>
    rw [hreload] at holdEncoded
    exact ⟨rfl, holdEncoded⟩
  | true =>
    refine ⟨?_, hencoded⟩
    obtain ⟨v, hv⟩ := isSome_iff_exists.mp
      ((Loaded.isSome_value_iff _ name).mpr (mem_sectionNames_of_reloadable hreload))
    obtain ⟨r, hr⟩ := hencoded v hv
    rw [if_pos rfl, if_pos rfl, hv, bind_some, hr, some_or]
    exact hr.symm

omit h in
lemma configSnapshot_new_eq_some {status : StatusLibrary}
    {canonicalize : String → Option Bytes} {version : String} {key tls : Bytes}
    {snapshot : ConfigSnapshot}
    (h : ConfigSnapshot.new status canonicalize version key startup configPath tls =
      some snapshot) :
    ∃ configFile, (∀ path, configPath = some path → ∃ resolved, canonicalize path = some resolved ∧
        configFile = some (status.sign key resolved)) ∧
      ∃ recorded, sections status key startup tls = some recorded ∧
        snapshot = ⟨version, key, configFile, recorded⟩ := by
  cases configPath with
  | none =>
    obtain ⟨recorded, hrecorded, hsnapshot⟩ := bind_eq_some_iff.mp h
    exact ⟨none, nofun, recorded, hrecorded, (some.inj hsnapshot).symm⟩
  | some path =>
    obtain ⟨configFile, hfile, h⟩ := bind_eq_some_iff.mp h
    obtain ⟨recorded, hrecorded, hsnapshot⟩ := bind_eq_some_iff.mp h
    obtain ⟨resolved, hresolved, rfl⟩ := map_eq_some_iff.mp hfile
    refine ⟨_, fun path' hpath => ⟨resolved, ?_, rfl⟩, recorded, hrecorded,
      (some.inj hsnapshot).symm⟩
    rw [← some.inj hpath, hresolved]

omit h in
theorem bindWithReload_evident {version : String} {statusKey : Option Bytes}
    (h : bindWithReload lib found version statusKey startup configPath = .ok s) :
    Evident lib startup configPath (loadedAtStart startup s) (loadedAtStart startup s) s ∧
      s.loadedConfig.version = version ∧
      ∀ path, configPath = some path → ∃ resolved, found.canonicalize path = some resolved ∧
        s.loadedConfig.configFile = some (lib.status.sign s.loadedConfig.key resolved) := by
  have hrunning := bindWithReload_running h
  simp only [bindWithReload, bind_ok_iff, mapError_ok_iff, elim_ok_iff] at h
  obtain ⟨clients, -, pool, -, reserved, -, identity, -, basic, -, key, -, snapshot, hsnapshot,
    h⟩ := h
  cases h
  obtain ⟨configFile, hfile, recorded, hrecorded, rfl⟩ := configSnapshot_new_eq_some hsnapshot
  refine ⟨⟨hrunning, fun name => ?_⟩, rfl, ?_⟩
  · have hrecords := @recordsValues_of_sections lib.status _ ⟨startup, identity.fingerprint⟩ _
      hrecorded name
    unfold inEffect
    rw [ite_self]
    exact hrecords
  · exact hfile

theorem Evident.step {e : ServiceEvent Key} (hstep : s.step lib e = some s') :
    Evident lib startup configPath start (loadedAfter lib s loaded e) s' ∧
      ∃ sections, s'.loadedConfig = { s.loadedConfig with sections } := by
  have hrunning := Shared.step_running h.running hstep
  cases e with
  | tunnel e =>
    have hsame : s'.loadedConfig = s.loadedConfig := by
      cases e <;> simp only [Shared.step, map_eq_some_iff, reduceCtorEq] at hstep <;>
        obtain ⟨_, -, rfl⟩ := hstep <;> rfl
    refine ⟨⟨hrunning, ?_⟩, _, hsame⟩
    rw [hsame]
    exact h.records
  | reload found =>
    have hreload := Shared.reloadConfiguration_allOrNothing lib found startup configPath s h.running
    cases some.inj hstep
    simp only [loadedAfter]
    generalize (reloadConfiguration lib found).perform s = result at hreload ⊢
    obtain ⟨_ | outcome, s'⟩ := result
    · obtain rfl : s' = s := hreload
      exact ⟨h, _, rfl⟩
    · obtain ⟨file, happlied⟩ := hreload
      obtain ⟨identity, hidentity, hloaded⟩ := loadedBy_of_applied h.running happlied
      obtain ⟨-, -, -, -, -, hkept, -⟩ := happlied.tls
      simp only [hloaded, getD_some]
      exact ⟨h.applied happlied hidentity, _, hkept⟩

theorem Evident.run {events : List (ServiceEvent Key)}
    (hrun : run (fun s e => s.step lib e) s events = some s') :
    Evident lib startup configPath start (lastLoaded lib s loaded events) s' ∧
      ∃ sections, s'.loadedConfig = { s.loadedConfig with sections } := by
  induction events generalizing s loaded with
  | nil =>
    cases hrun
    exact ⟨h, _, rfl⟩
  | cons e events ih =>
    rw [run_cons, bind_eq_some_iff] at hrun
    obtain ⟨next, hstep, hrun⟩ := hrun
    obtain ⟨hnext, first, hfirst⟩ := h.step hstep
    obtain ⟨hend, last, hlast⟩ := ih hnext hrun
    rw [lastLoaded, hstep]
    refine ⟨hend, last, ?_⟩
    rw [hlast, hfirst]

omit h

variable (lib) in
/-- What the status command loads: the certificates are those at the paths of the file, unless the
command line names others. The validation of the file is left out: it only refuses. -/
def Loaded.ofFile (found : Surroundings Key) (certOverride keyOverride : Option String)
    (path : String) : Option Loaded := do
  let text ← found.readToString path
  let config ← lib.parseToml text
  let tls : TlsSection :=
    ⟨certOverride.getD config.tls.certPath, keyOverride.getD config.tls.keyPath⟩
  let identity ← (TlsIdentity.load lib.tls found.readFile tls).toOption
  return ⟨{ config with tls }, identity.fingerprint⟩

/-- The status command tells what is in effect. A reload on the file it reads settles every section
that asks for one exactly if the certificates at the paths of startup are those the command
loads. -/
theorem status_truthful {version : String} {statusKey : Option Bytes}
    {events : List (ServiceEvent Key)} {s₀ : Shared Key Certificate PrivateKey}
    (hdigests : DigestsDiffer lib.status)
    (hstart : bindWithReload lib found version statusKey startup configPath = .ok s₀)
    (hrun : run (fun s e => s.step lib e) s₀ events = some s) :
    (∀ canonicalize version' path disk report,
      s.loadedConfig.compare lib.status canonicalize version' path disk = .ok report →
        Reports (inEffect (loadedAtStart startup s₀)
          (lastLoaded lib s₀ (loadedAtStart startup s₀) events)) disk.value report) ∧
    (∀ (canonicalize : String → Option Bytes) path path' (disk : Loaded) recorded,
      configPath = some path → canonicalize path' = found.canonicalize path →
      sections lib.status s.loadedConfig.key disk.config disk.fingerprint = some recorded →
        ∃ report, s.loadedConfig.compare lib.status canonicalize version path' disk = .ok report) ∧
    ∀ found' outcome s' path cert key disk,
      (reloadConfiguration lib found').perform s = (.ok outcome, s') → configPath = some path →
      Loaded.ofFile lib found' cert key path = some disk →
      ∀ canonicalize version' path' before after,
        s.loadedConfig.compare lib.status canonicalize version' path' disk = .ok before →
        s'.loadedConfig.compare lib.status canonicalize version' path' disk = .ok after →
        (Settles before after ↔ ∃ identity,
          TlsIdentity.load lib.tls found'.readFile startup.tls = .ok identity ∧
            identity.fingerprint = disk.fingerprint) := by
  obtain ⟨hatStart, hversion, hfile⟩ := bindWithReload_evident hstart
  obtain ⟨hnow, now, hrecord⟩ := hatStart.run hrun
  refine ⟨fun _ _ _ _ _ =>
    reports_of_compare hdigests hnow.records (exists_inEffect_eq _ _), ?_, ?_⟩
  · intro canonicalize path path' disk recorded hpath hsame hrecorded
    obtain ⟨resolved, hresolved, hconfigFile⟩ := hfile path hpath
    refine exists_compare hnow.records (isSome_inEffect_iff _ _) ?_ (hsame.trans hresolved)
      ?_ hrecorded
    · rw [hrecord]
      exact hversion
    · rw [hrecord]
      exact hconfigFile
  · intro found' outcome s' path cert key disk hreload hpath hdisk canonicalize version'
      path' before
      after hbefore hafter
    have happlied :=
      Shared.reloadConfiguration_allOrNothing lib found' startup configPath s hnow.running
    rw [hreload] at happlied
    obtain ⟨file, happlied⟩ := happlied
    obtain ⟨identity, hidentity, -⟩ := loadedBy_of_applied hnow.running happlied
    obtain ⟨tls, fingerprint, rfl⟩ : ∃ tls fingerprint, disk =
      ⟨{ file with tls }, fingerprint⟩ := by
      obtain ⟨path'', text, hpath'', htext, hparse⟩ := happlied.read
      obtain rfl := some.inj (hpath.symm.trans hpath'')
      simp only [Loaded.ofFile, htext, hparse, bind_eq_bind, bind_some,
        bind_eq_some_iff] at hdisk
      obtain ⟨_, -, hdisk⟩ := hdisk
      exact ⟨_, _, (some.inj hdisk).symm⟩
    have hafterRecords := (hnow.applied happlied hidentity).records
    rw [settles_iff (reports_of_compare hdigests hnow.records (exists_inEffect_eq _ _) hbefore)
      (reports_of_compare hdigests hafterRecords (exists_inEffect_eq _ _) hafter), hidentity]
    constructor
    · exact fun h => ⟨identity, rfl, h⟩
    · rintro ⟨_, h, hsame⟩
      cases h
      exact hsame

end Runs

/-! ### A certificate that moves -/

def movedConfig : ServerConfig := { pinnedConfig with tls := ⟨"renewed", "key"⟩ }

def movedBytes : List (SectionValue × Bytes) :=
  [(.listeners (pinnedConfig.listeners.map fun l => { l with auth := l.auth.withoutCredentials }),
    [0]),
    (.clients pinnedConfig.clients, [1]),
    (.tls pinnedConfig.tls, [2]),
    (.tls movedConfig.tls, [3]),
    (.ipProxy pinnedConfig.ipProxy, [4]),
    (.basicCredentials (pinnedConfig.listeners.map (·.auth.basicUsers)), [5]),
    (.tuning "", [6]),
    (.tlsIdentity [0, 0, 0, 0, 0, 0, 0, 1, 2], [7]),
    (.tlsIdentity [0, 0, 0, 0, 0, 0, 0, 1, 9], [8])]

def movedLibraries : Libraries ℕ (ℕ × Bytes) Bytes Bytes :=
  { pinnedLibraries with
    parseToml := fun _ => some movedConfig
    status := ⟨fun value => movedBytes.lookup value, fun _ bytes => bytes⟩ }

def movedFiles : Surroundings ℕ :=
  { pinnedFiles with readFile := fun path => some (if path = "renewed" then [9] else [2]) }

lemma movedLibraries_digestsDiffer : DigestsDiffer movedLibraries.status := by
  intro key name l l' v v' bytes bytes' _ _ hv hv' hsame
  have hmem : ∀ {v bytes}, movedBytes.lookup v = some bytes → (v, bytes) ∈ movedBytes := by
    intro v bytes h
    obtain ⟨before, after, hsplit, -⟩ := lookup_eq_some_iff.mp h
    rw [hsplit]
    exact mem_append_right before mem_cons_self
  have hinjective : ∀ entry ∈ movedBytes, ∀ entry' ∈ movedBytes,
      entry.2 = entry'.2 → entry.1 = entry'.1 := by
    decide +kernel
  exact hinjective _ (hmem hv) _ (hmem hv') hsame

def movedStart : Except StartupError (Shared ℕ Bytes Bytes) :=
  bindWithReload movedLibraries movedFiles "1" (some [4]) pinnedConfig (some "config.toml")

def movedServer : Shared ℕ Bytes Bytes :=
  movedStart.toOption.get (by decide +kernel)

def movedReload (found : Surroundings ℕ) (s : Shared ℕ Bytes Bytes) :
    Shared ℕ Bytes Bytes :=
  ((reloadConfiguration movedLibraries found).perform s).2

def movedReport (found : Surroundings ℕ) (s : Shared ℕ Bytes Bytes) :
    Except StatusError (List (String × SectionState)) := do
  let disk ← (Loaded.ofFile movedLibraries found none none "config.toml").elim
    (.error .unresolved) .ok
  s.loadedConfig.compare movedLibraries.status found.canonicalize "1" "config.toml" disk

/-- The reload succeeds, and the status command asks for it as before. -/
theorem status_movedCertificate :
    DigestsDiffer movedLibraries.status ∧ movedStart = .ok movedServer ∧
    ((reloadConfiguration movedLibraries movedFiles).perform movedServer).1.isOk = true ∧
    (movedReport movedFiles movedServer).map (·.lookup "tls_identity") =
      .ok (some .reloadRequired) ∧
    (movedReport movedFiles (movedReload movedFiles movedServer)).map (·.lookup "tls_identity") =
      .ok (some .reloadRequired) := by
  refine ⟨movedLibraries_digestsDiffer, rfl, ?_, ?_, ?_⟩ <;> decide +kernel

def renewedFiles : Surroundings ℕ := { movedFiles with readFile := fun _ => some [9] }

def movedStates (identity : SectionState) : List (String × SectionState) :=
  sectionNames.reverse.map fun name => (name, if name = "tls_identity" then identity
    else if name = "tls" then .restartRequired else .applied)

/-- After a reload that changed nothing, the certificate is renewed at both paths: the next reload
settles what the status command asks for. -/
theorem status_truthful_renewed :
    movedStart = .ok movedServer ∧
    movedReport renewedFiles (movedReload movedFiles movedServer) =
      .ok (movedStates .reloadRequired) ∧
    movedReport renewedFiles (movedReload renewedFiles (movedReload movedFiles movedServer)) =
      .ok (movedStates .applied) ∧
    Settles (movedStates .reloadRequired) (movedStates .applied) := by
  have hstart : movedStart = .ok movedServer := rfl
  obtain ⟨-, -, hreload⟩ := status_truthful movedLibraries_digestsDiffer hstart
    (rfl : run (fun s e => s.step movedLibraries e) movedServer [.reload movedFiles] =
      some (movedReload movedFiles movedServer))
  have hbefore : movedReport renewedFiles (movedReload movedFiles movedServer) =
      .ok (movedStates .reloadRequired) := by
    decide +kernel
  have hafter :
    movedReport renewedFiles (movedReload renewedFiles (movedReload movedFiles movedServer)) =
      .ok (movedStates .applied) := by
    decide +kernel
  refine ⟨hstart, hbefore, hafter, ?_⟩
  exact (hreload renewedFiles _ _ "config.toml" none none _ rfl rfl rfl
    renewedFiles.canonicalize "1"
    "config.toml" _ _ hbefore hafter).mpr ⟨_, rfl, rfl⟩

end MasqueServer
