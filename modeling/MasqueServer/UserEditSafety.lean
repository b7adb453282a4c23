import MasqueServer.UserEditMeaning

/-!
# When an edit of users succeeds

An edit that the users of the selected listener admit succeeds exactly when they are written in one
of the two ways, and the new text then differs from the old one by that edit alone. A refused edit
leaves the file as it was.
-/
namespace MasqueServer

open List Option

/-! ### The edit -/

section Edit

variable {Text Targets Rest Key Digest : Type} (lib : ConfigLibrary Text Targets Rest Key Digest)
  (world : EditWorld Text Key) (edit : UserEdit) (text : Text) (document : TomlTable)
  (config : FileConfig Targets Rest) (index : ℕ) (listener : ListenerBlock Targets)
  (resolved : Option ResolvedUserPassword)

/-- A text that holds an accepted configuration, the one Basic listener that is selected in it, and
an edit that its users admit. -/
structure AdmitsEdit : Prop where
  parsed : lib.parseDocument text = some document
  decoded : decodeConfig lib.decodeTargets lib.decodeRest document = some config
  valid : validateConfig lib world.keys config = true
  selected : selectBasicListener config edit.selector = .ok index
  atIndex : config.listeners[index]? = some listener
  output : edit.clientOutput.isSome → listener.transport = .http3
  username : checkUsername edit.username = .ok ()
  resolves : edit.resolve world = .ok resolved
  allowed : edit.Allowed lib.basic (replacementHash resolved) listener.auth.basicUsers

variable {lib world edit text document config index listener resolved}

namespace AdmitsEdit

variable (h : AdmitsEdit lib world edit text document config index listener resolved)
  (hkeys : ∀ l i, (world.keys l i).isSome)
include h

lemma parseToml_eq : parseToml lib text = some config := by
  rw [parseToml, h.parsed]
  exact h.decoded

lemma wellFormed :
    wellFormedEntries lib.isValue document = true := lib.parse_wellFormed _ _ h.parsed

lemma basicEnabled : listener.auth.basicEnabled = true :=
  selectBasicListener_basic h.selected h.atIndex

variable {table : TomlTable}

lemma parseToml_edited {tables : List TomlTable} {users : List BasicUser}
    (htable : decodeAuth table = some listener.auth)
    (hwell : wellFormedEntries lib.isValue table = true)
    (hspells : List.Forall₂ Spells tables users) (hne : tables ≠ [])
    (htables : ∀ e ∈ tables, wellFormedEntries lib.isValue e = true) :
    parseToml lib (lib.print (setAuthTable document index (withUsersTable table tables))) =
      some (config.setAuth index (listener.auth.withUsers users)) := by
  rw [parseToml, lib.parse_print _ (wellFormed_setAuthTable h.wellFormed
    (wellFormed_withUsersTable hwell hne htables) index)]
  exact decodeConfig_setAuthTable h.decoded (decodeAuth_withUsersTable htable hspells) index

include hkeys

lemma validAuth : ValidAuth lib.basic listener.auth.toAuthSection :=
  ((validateConfig_iff hkeys).mp h.valid).2 listener (mem_of_getElem? h.atIndex) h.basicEnabled

lemma validUsers : ValidUsers lib.basic listener.auth.basicUsers := by
  rw [basicUsers_eq h.basicEnabled]
  exact (h.validAuth hkeys).users

lemma expected_eq :
    let auth := migrateLegacyBasicUser listener.auth
    { auth with
      users := edit.applyTo (replacementHash resolved)
        (auth.users.findIdx? (·.username = edit.username)) auth.users } =
      listener.auth.withUsers
        (edit.edited (replacementHash resolved) listener.auth.basicUsers) := by
  dsimp only
  rw [migrateLegacyBasicUser_eq h.basicEnabled (h.validAuth hkeys)]
  exact congrArg listener.auth.withUsers
    (UserEdit.applyTo_eq_edited h.allowed (h.validUsers hkeys).nodup)

lemma exists_canonical (htable : decodeAuth table = some listener.auth)
    (hwell : wellFormedEntries lib.isValue table = true) (hspelt : speltOnce table = true) :
    ∃ result, canonicalUsersTable table = .ok result ∧
      Canonical lib.isValue table result listener.auth.basicUsers := by
  have hvalid := h.validAuth hkeys
  rw [basicUsers_eq h.basicEnabled]
  cases hget : TomlTable.get table "users" with
  | none =>
    obtain ⟨hnil, hcanonical⟩ :=
      canonicalUsersTable_pair htable hvalid lib.phcAlgorithm_empty hget
    rwa [if_pos hnil]
  | some item =>
    rw [speltOnce, hget, isNone_some, Bool.false_or, Bool.and_eq_true, isNone_iff_eq_none,
      isNone_iff_eq_none] at hspelt
    obtain ⟨hne, hcanonical⟩ :=
      canonicalUsersTable_users htable hvalid hwell hget hspelt.1 hspelt.2
    rwa [if_neg hne]

variable [DecidableEq Targets] [DecidableEq Rest]

lemma prepareEdit_ok_iff {prepared : PreparedEdit Text} :
    prepareEdit lib world edit text = .ok prepared ↔
      ∃ document', edit.applyToDocument (replacementHash resolved) document index = .ok document' ∧
        parseToml lib (lib.print document') = some (config.setAuth index (listener.auth.withUsers
          (edit.edited (replacementHash resolved) listener.auth.basicUsers))) ∧
        validateConfig lib world.keysAgain (config.setAuth index (listener.auth.withUsers
          (edit.edited (replacementHash resolved) listener.auth.basicUsers))) = true ∧
        prepared = ⟨lib.print document', resolved⟩ := by
  have hexpected := h.expected_eq hkeys
  have hcheck : edit.check ((migrateLegacyBasicUser listener.auth).users.findIdx?
      (·.username = edit.username)) (migrateLegacyBasicUser listener.auth).users.length =
        .ok () := by
    rw [migrateLegacyBasicUser_eq h.basicEnabled (h.validAuth hkeys)]
    exact UserEdit.check_of_allowed h.allowed
  have hhttp3 : (edit.clientOutput.isNone || decide (listener.transport = .http3)) = true := by
    cases houtput : edit.clientOutput with
    | none => rfl
    | some output => simpa using h.output (by rw [houtput]; rfl)
  dsimp only at hexpected
  simp only [prepareEdit, bind_ok_iff, elim_ok_iff, ensure_ok_iff, mapError_ok_iff, pure,
    Except.pure,
    Except.ok.injEq, decide_eq_true_eq, h.parseToml_eq, some.injEq, exists_eq_left', h.valid,
    true_and, h.selected, h.atIndex, hhttp3, hcheck, h.resolves, h.parsed, hexpected, exists_const]
  constructor
  · rintro ⟨document', hdocument', _, hparse, rfl, hvalid, rfl⟩
    exact ⟨document', hdocument', hparse, hvalid, rfl⟩
  · rintro ⟨document', hdocument', hparse, hvalid, rfl⟩
    exact ⟨document', hdocument', _, hparse, rfl, hvalid, rfl⟩

theorem prepareEdit_of_speltOnce (hkeysAgain : ∀ l i, (world.keysAgain l i).isSome)
    (htable : editableAuthTable document index = some table) (hspelt : speltOnce table = true) :
    ∃ merged, prepareEdit lib world edit text = .ok ⟨merged, resolved⟩ ∧
      parseToml lib merged = some (config.setAuth index (listener.auth.withUsers
        (edit.edited (replacementHash resolved) listener.auth.basicUsers))) := by
  obtain ⟨table', htable', hdecode, hwell⟩ := exists_editableAuthTable h.decoded h.atIndex
  obtain rfl : table' = table := some.inj (htable'.symm.trans htable)
  replace hwell := hwell lib.isValue h.wellFormed
  have husers := h.validUsers hkeys
  obtain ⟨⟨auth, tables⟩, hcanonical, hspells, hset, hall⟩ :=
    h.exists_canonical hkeys hdecode hwell hspelt
  obtain ⟨tables', htables'⟩ := UserEdit.exists_applyToTables hspells
    (UserEdit.check_of_allowed h.allowed)
  have hedited := UserEdit.applyToTables_spells hspells htables'
  rw [UserEdit.applyTo_eq_edited h.allowed husers.nodup] at hedited
  have hvalid := UserEdit.edited_valid husers h.username h.allowed
  have hne : tables' ≠ [] := fun hnil => hvalid.nonempty
    (length_eq_zero_iff.mp (hedited.length_eq.symm.trans (by rw [hnil]; rfl)))
  have hparse := h.parseToml_edited hdecode hwell hedited hne
    (UserEdit.wellFormed_of_applyToTables hall htables')
  refine ⟨_, (h.prepareEdit_ok_iff hkeys).mpr ⟨_, ?_, hparse, ?_, rfl⟩, hparse⟩
  · simp only [UserEdit.applyToDocument, bind_ok_iff, elim_ok_iff]
    exact ⟨table', htable, _, hcanonical, tables', htables', by rw [hset]; rfl⟩
  · exact validateConfig_setAuth hkeys hkeysAgain h.valid h.atIndex hvalid

/-- Users that are written in both ways cannot be edited: the empty legacy pair would become a
user. -/
theorem prepareEdit_of_speltTwice (htable : editableAuthTable document index = some table)
    (hspelt : speltOnce table = false) (prepared : PreparedEdit Text) :
    prepareEdit lib world edit text ≠ .ok prepared := by
  intro hprepared
  obtain ⟨table', htable', hdecode, hwell⟩ := exists_editableAuthTable h.decoded h.atIndex
  obtain rfl : table' = table := some.inj (htable'.symm.trans htable)
  replace hwell := hwell lib.isValue h.wellFormed
  have husers := h.validUsers hkeys
  obtain ⟨document', hdocument', hparse, -, -⟩ := (h.prepareEdit_ok_iff hkeys).mp hprepared
  simp only [UserEdit.applyToDocument, bind_ok_iff, elim_ok_iff] at hdocument'
  obtain ⟨auth, hauth, ⟨auth', tables⟩, hcanonical, tables', htables', hdocument'⟩ := hdocument'
  obtain rfl : table' = auth := some.inj (htable.symm.trans hauth)
  obtain ⟨hne, hspells, hset, hall⟩ :=
    canonicalUsersTable_both hdecode (h.validAuth hkeys) hwell hspelt hcanonical
  cases hdocument'
  have hsize : tables.length = listener.auth.basicUsers.length + 1 := by
    rw [hspells.length_eq, length_append, length_singleton, basicUsers_eq h.basicEnabled,
      if_neg hne]
  have hlength := UserEdit.length_of_applyToTables htables'
  rw [hsize] at hlength
  obtain ⟨hpos, hdiffer⟩ := edit.sizeAfter_succ (length_pos_iff.mpr husers.nonempty)
  have hedited := UserEdit.applyToTables_spells hspells htables'
  have hread := h.parseToml_edited hdecode hwell hedited (ne_nil_of_length_pos (hlength ▸ hpos))
    (UserEdit.wellFormed_of_applyToTables hall htables')
  rw [hset, hread] at hparse
  have hauths := setAuth_injective h.atIndex (some.inj hparse)
  have hlengths := congrArg (fun auth : ConfigAuth => auth.users.length) hauths
  apply hdiffer
  calc edit.sizeAfter (listener.auth.basicUsers.length + 1)
      = tables'.length := hlength.symm
    _ = _ := hedited.length_eq
    _ = (edit.edited (replacementHash resolved) listener.auth.basicUsers).length := hlengths
    _ = edit.sizeAfter listener.auth.basicUsers.length :=
      UserEdit.edited_length h.allowed husers.nodup

end AdmitsEdit

/-! ### The file -/

section File

open Transaction

variable {path : DiskPath}

lemma tempPath_ne (pid : ℕ) (path : DiskPath) : tempPath pid path ≠ path := by
  intro h
  have hname := congrArg (fun path : DiskPath => path.name.length) h
  simp only [tempPath, String.length_append] at hname
  have hdot : ".".length = 1 := rfl
  omega

variable (world path) in
/-- A file that exists holds what it held, or what another program stored meanwhile. -/
def Undisturbed (disk disk' : Disk Text) : Prop :=
  (disk.get path).isSome → disk'.get path = disk.get path ∨
    (world.interim.isSome ∧ disk'.get path = world.interim)

namespace Undisturbed

lemma refl (disk : Disk Text) : Undisturbed world path disk disk := fun _ => .inl rfl

lemma trans (a b c : Disk Text) (hab : Undisturbed world path a b)
    (hbc : Undisturbed world path b c) : Undisturbed world path a c := by
  intro ha
  obtain hkept | ⟨hinterim, hstored⟩ := hab ha
  · rw [← hkept] at ha ⊢
    exact hbc ha
  · obtain hkept | hstored' := hbc (hstored ▸ hinterim)
    · exact .inr ⟨hinterim, hkept.trans hstored⟩
    · exact .inr hstored'

lemma of_get_eq {disk disk' : Disk Text} (h : disk'.get path = disk.get path) :
    Undisturbed world path disk disk' := fun _ => .inl h

end Undisturbed

lemma perform_createNew (file : DiskPath) (contents : Text) (disk : Disk Text) :
    (createNew world file contents).perform disk =
      if (!disk.contains file && world.created file) = true then (.ok (), disk.put file contents)
      else (.error (.create file), disk) := by
  unfold createNew
  rw [perform_bind_ok (perform_get disk), perform_bind, perform_require, ensure]
  split_ifs <;> rfl

lemma createNew_within (file : DiskPath) (contents : Text) :
    Within (Undisturbed world path) (createNew world file contents) := by
  intro disk hsome
  rw [perform_createNew]
  split_ifs with hnew
  · rw [Bool.and_eq_true, Bool.not_eq_true', Table.contains_eq_false] at hnew
    left
    rw [Table.get_put, if_neg]
    rintro rfl
    rw [hnew.1] at hsome
    cases hsome
  · exact .inl rfl

lemma deliver_within (edit : UserEdit) (resolved : Option ResolvedUserPassword) :
    Within (Undisturbed world path) (edit.deliver lib world resolved) := by
  refine Within.bind Undisturbed.trans (Within.require Undisturbed.refl _) fun _ => ?_
  cases edit.clientOutput with
  | none => exact Within.require Undisturbed.refl (.ok ())
  | some output =>
    refine Within.bind Undisturbed.trans (Within.require Undisturbed.refl _) fun password => ?_
    refine Within.bind Undisturbed.trans (Within.require Undisturbed.refl _) fun contents => ?_
    cases output.out with
    | none => exact Within.require Undisturbed.refl _
    | some file => exact createNew_within file _

variable [DecidableEq Text]

lemma writeInPlace_fails (expected contents : Text) :
    FailsWithin (Undisturbed world path) (writeInPlace world path expected contents) := by
  have htemp := tempPath_ne world.pid path
  refine FailsWithin.cleaningUp Undisturbed.trans ?_ fun disk => Undisturbed.of_get_eq ?_
  · refine FailsWithin.bind Undisturbed.trans (createNew_within _ _) fun _ => ?_
    refine FailsWithin.bind Undisturbed.trans ?_ fun _ => ?_
    · intro disk hsome
      rw [perform_write]
      cases hinterim : world.interim with
      | none => exact .inl rfl
      | some stored => exact .inr ⟨rfl, by simp⟩
    refine FailsWithin.bind Undisturbed.trans (Within.get Undisturbed.refl) fun disk => ?_
    refine FailsWithin.bind Undisturbed.trans (Within.require Undisturbed.refl _) fun _ => ?_
    refine FailsWithin.bind Undisturbed.trans (Within.require Undisturbed.refl _) fun _ => ?_
    refine FailsWithin.bind Undisturbed.trans (Within.require Undisturbed.refl _) fun _ => ?_
    intro disk e disk' hperform
    cases hperform
  · rw [Table.get_remove, if_neg htemp.symm]

variable [DecidableEq Targets] [DecidableEq Rest]

lemma editBasicUser_fails :
    FailsWithin (Undisturbed world path) (editBasicUser lib world path edit) := by
  refine FailsWithin.bind Undisturbed.trans (Within.require Undisturbed.refl _) fun _ => ?_
  refine FailsWithin.bind Undisturbed.trans (Within.require Undisturbed.refl _) fun _ => ?_
  refine FailsWithin.bind Undisturbed.trans (Within.get Undisturbed.refl) fun disk => ?_
  refine FailsWithin.bind Undisturbed.trans (Within.require Undisturbed.refl _) fun text => ?_
  refine FailsWithin.bind Undisturbed.trans (Within.require Undisturbed.refl _) fun prepared => ?_
  refine FailsWithin.bind Undisturbed.trans (deliver_within edit _) fun _ => ?_
  exact writeInPlace_fails text prepared.merged

variable {disk : Disk Text}

lemma editBasicUser_missing (h : disk.get path = none) :
    ((editBasicUser lib world path edit).perform disk).2 = disk := by
  unfold editBasicUser
  rw [perform_bind, perform_require]
  cases (checkUsername edit.username).mapError UserEditError.username with
  | error e => rfl
  | ok _ =>
    dsimp only
    rw [perform_bind, perform_require]
    cases ensure world.locked UserEditError.lock with
    | error e => rfl
    | ok _ =>
      dsimp only
      rw [perform_bind_ok (perform_get disk), perform_bind, perform_require, h]
      rfl

theorem editBasicUser_refused {disk' : Disk Text} {e : UserEditError}
    (h : (editBasicUser lib world path edit).perform disk = (.error e, disk')) :
    disk'.get path = disk.get path ∨ ∃ stored, world.interim = some stored ∧
      disk'.get path = some stored := by
  cases hget : disk.get path with
  | none =>
    have hdisk := @editBasicUser_missing _ _ _ _ _ lib world edit path _ _ _ disk hget
    rw [h] at hdisk
    exact .inl ((congrArg (Table.get · path) hdisk).trans hget)
  | some text =>
    obtain hkept | ⟨hinterim, hstored⟩ := editBasicUser_fails disk e disk' h (by rw [hget]; rfl)
    · exact .inl (hkept.trans hget)
    · obtain ⟨stored, hsome⟩ := isSome_iff_exists.mp hinterim
      exact .inr ⟨stored, hsome, hstored.trans hsome⟩

/-- Nothing outside stands in the way of an edit. -/
structure EditWorld.Serves (world : EditWorld Text Key) (path : DiskPath) (disk : Disk Text) :
    Prop where
  locked : world.locked = true
  keys : ∀ l i, (world.keys l i).isSome
  keysAgain : ∀ l i, (world.keysAgain l i).isSome
  created : world.created (tempPath world.pid path) = true
  unused : disk.get (tempPath world.pid path) = none
  interim : world.interim = none
  renamed : world.renamed = true

lemma writeInPlace_ok {expected contents : Text} (hserves : world.Serves path disk)
    (hget : disk.get path = some expected) :
    ∃ disk', (writeInPlace world path expected contents).perform disk = (.ok (), disk') ∧
      disk'.get path = some contents := by
  have hne := tempPath_ne world.pid path
  have hcreate : (createNew world (tempPath world.pid path) contents).perform disk =
      (.ok (), disk.put (tempPath world.pid path) contents) := by
    rw [perform_createNew, if_pos]
    rw [Bool.and_eq_true, Bool.not_eq_true', Table.contains_eq_false]
    exact ⟨hserves.unused, hserves.created⟩
  have hstill : (disk.put (tempPath world.pid path) contents).get path = some expected := by
    rw [Table.get_put, if_neg hne.symm, hget]
  refine ⟨((disk.put (tempPath world.pid path) contents).remove (tempPath world.pid path)).put path
    contents, perform_cleaningUp_ok ?_, ?_⟩
  · rw [perform_bind_ok hcreate, perform_bind_ok (perform_write _ _), hserves.interim,
      elim_none, perform_bind_ok (perform_get _),
      perform_require_ok (elim_ok_iff.mpr hstill),
      perform_require_ok (ensure_ok _ (decide_eq_true rfl)),
      perform_require_ok (ensure_ok _ hserves.renamed), perform_write]
  · rw [Table.get_put, if_pos rfl]

lemma editBasicUser_ok {delivered : Disk Text} {merged : Text}
    (hname : checkUsername edit.username = .ok ()) (hget : disk.get path = some text)
    (hprepared : prepareEdit lib world edit text = .ok ⟨merged, resolved⟩)
    (hdelivered : (edit.deliver lib world resolved).perform disk = (.ok (), delivered))
    (hserves : world.Serves path delivered) :
    ∃ disk', (editBasicUser lib world path edit).perform disk = (.ok (), disk') ∧
      disk'.get path = some merged := by
  have hkept : delivered.get path = some text := by
    have hwithin := @deliver_within _ _ _ _ _ lib world path edit resolved disk (by rw [hget]; rfl)
    rw [hdelivered, hserves.interim] at hwithin
    obtain hkept | ⟨hnone, -⟩ := hwithin
    · exact hkept.trans hget
    · cases hnone
  obtain ⟨disk', hwritten, hmerged⟩ :=
    @writeInPlace_ok _ _ world path _ delivered text merged hserves hkept
  refine ⟨disk', ?_, hmerged⟩
  have hnamed : (checkUsername edit.username).mapError UserEditError.username = .ok () :=
    mapError_ok_iff.mpr hname
  rw [editBasicUser, perform_require_ok hnamed, perform_require_ok (ensure_ok _ hserves.locked),
    perform_bind_ok (perform_get disk), perform_require_ok (elim_ok_iff.mpr hget),
    perform_require_ok hprepared, perform_bind_ok hdelivered, hwritten]

lemma prepareEdit_of_editBasicUser {disk' : Disk Text} (hget : disk.get path = some text)
    (h : (editBasicUser lib world path edit).perform disk = (.ok (), disk')) :
    ∃ prepared, prepareEdit lib world edit text = .ok prepared := by
  obtain ⟨-, -, h⟩ := ok_of_perform_require h
  obtain ⟨-, -, h⟩ := ok_of_perform_require h
  rw [perform_bind_ok (perform_get disk)] at h
  obtain ⟨text', htext', h⟩ := ok_of_perform_require h
  obtain rfl : text = text' := some.inj (hget.symm.trans (elim_ok_iff.mp htext'))
  obtain ⟨prepared, hprepared, -⟩ := ok_of_perform_require h
  exact ⟨prepared, hprepared⟩

end File

variable [DecidableEq Text] [DecidableEq Targets] [DecidableEq Rest]
  (lib : ConfigLibrary Text Targets Rest Key Digest) (world : EditWorld Text Key) (edit : UserEdit)

/-- A refused edit leaves the file unchanged. An edit that the users of the selected listener admit
succeeds, and makes exactly that change, if and only if they are written in one of the two ways: a
section that lists its users and also spells out an empty legacy pair is accepted by the server but
cannot be edited. -/
theorem userEdit_exact (path : DiskPath) (disk : Disk Text) :
    (∀ e disk', (editBasicUser lib world path edit).perform disk = (.error e, disk') →
      disk'.get path = disk.get path ∨
        ∃ stored, world.interim = some stored ∧ disk'.get path = some stored) ∧
    ∀ text document config index listener resolved table delivered,
      disk.get path = some text →
      AdmitsEdit lib world edit text document config index listener resolved →
      editableAuthTable document index = some table →
      (edit.deliver lib world resolved).perform disk = (.ok (), delivered) →
      world.Serves path delivered →
      ((∃ disk' text', (editBasicUser lib world path edit).perform disk = (.ok (), disk') ∧
        disk'.get path = some text' ∧
        parseToml lib text' = some (config.setAuth index (listener.auth.withUsers
          (edit.edited (replacementHash resolved) listener.auth.basicUsers)))) ↔
      speltOnce table = true) := by
  refine ⟨fun e disk' h => editBasicUser_refused h, ?_⟩
  intro text document config index listener resolved table delivered hget hadmits htable hdelivered
    hserves
  constructor
  · rintro ⟨disk', text', hok, -, -⟩
    obtain ⟨prepared, hprepared⟩ := prepareEdit_of_editBasicUser hget hok
    by_contra hspelt
    exact hadmits.prepareEdit_of_speltTwice hserves.keys htable
      (Bool.eq_false_iff.mpr hspelt) prepared
      hprepared
  · intro hspelt
    obtain ⟨merged, hprepared, hparse⟩ :=
      hadmits.prepareEdit_of_speltOnce hserves.keys hserves.keysAgain htable hspelt
    obtain ⟨disk', hok, hmerged⟩ :=
      editBasicUser_ok hadmits.username hget hprepared hdelivered hserves
    exact ⟨disk', merged, hok, hmerged, hparse⟩

end Edit

/-! ### A section written in both ways -/

lemma mk_injective (key : ℕ) : Function.Injective (Prod.mk key : Bytes → ℕ × Bytes) :=
  Prod.mk_right_injective key

def plainPrimitives : BasicPrimitives ℕ (ℕ × Bytes) where
  decodeBase64 := some
  hmac := Prod.mk
  phcAlgorithm hash := if hash.isEmpty then none else some "argon2id"
  verifyPassword hash password := asBytes hash = password
  hmac_injective := mk_injective

def anyValue (_ : String) : Bool := true

def readTree (document : TomlTable) : Option TomlTable :=
  if wellFormedEntries anyValue document then some document else none

lemma readTree_wellFormed (text document : TomlTable) (h : readTree text = some document) :
    wellFormedEntries anyValue document = true := by
  rw [readTree] at h
  split_ifs at h with hwell
  cases h
  exact hwell

lemma readTree_print (document : TomlTable) (h : wellFormedEntries anyValue document = true) :
    (readTree (id document)).bind (decodeConfig (fun _ => some ()) fun _ => some ()) =
      decodeConfig (fun _ => some ()) (fun _ => some ()) document := by
  rw [readTree, id, if_pos h]
  rfl

lemma plainPrimitives_empty : plainPrimitives.phcAlgorithm "" = none := rfl

def treeLibrary : ConfigLibrary TomlTable Unit Unit ℕ (ℕ × Bytes) where
  ofString contents := [("contents", .string contents)]
  parseDocument := readTree
  print := id
  isValue := anyValue
  decodeTargets _ := some ()
  decodeRest _ := some ()
  checks _ := true
  basic := plainPrimitives
  parse_wellFormed := readTree_wellFormed
  parse_print := readTree_print
  phcAlgorithm_empty := plainPrimitives_empty

def calmWorld : EditWorld TomlTable ℕ where
  locked := true
  stdin := none
  terminal := false
  entered := none
  repeated := none
  generated := none
  hashPassword _ := none
  keys _ _ := some 0
  keysAgain _ _ := some 0
  printed := true
  created _ := true
  pid := 1
  interim := none
  renamed := true

def oneListener (auth : TomlTable) : TomlTable :=
  [("listeners", .tables [[("listen_addr", .string "0.0.0.0:443"), ("auth", .table auth)]])]

def oneListenerConfig (auth : AuthSection) : FileConfig Unit Unit :=
  ⟨[⟨.v4 0 443, .http3, 1, none, none, none, ⟨⟨auth, true, .basic⟩, false⟩⟩], ()⟩

def editedPath : DiskPath := ⟨"/etc/masque", "masque.toml"⟩

def editedDisk (auth : TomlTable) :
    Disk TomlTable := (∅ : Disk TomlTable).put editedPath (oneListener auth)

def addBob : UserEdit := .add ⟨⟨none, none⟩, "bob", some "$argon2id$bob", false, none⟩

def bobPassword : Option ResolvedUserPassword := some ⟨"$argon2id$bob", none, false⟩

lemma calmWorld_serves (auth : TomlTable) : calmWorld.Serves editedPath (editedDisk auth) where
  locked := rfl
  keys _ _ := rfl
  keysAgain _ _ := rfl
  created := rfl
  unused := by rw [editedDisk, Table.get_put, if_neg (tempPath_ne _ _), Table.get_empty]
  interim := rfl
  renamed := rfl

def emptyPairTable : TomlTable :=
  [("username", .string ""), ("password_hash", .string ""),
    ("users", .tables [basicUserTable "alice" "$argon2id$alice"])]

def emptyPairSection : AuthSection := ⟨"", "", [⟨"alice", "$argon2id$alice"⟩]⟩

lemma emptyPair_admits :
    ∃ listener, AdmitsEdit treeLibrary calmWorld addBob (oneListener emptyPairTable)
    (oneListener emptyPairTable) (oneListenerConfig emptyPairSection) 0 listener bobPassword := by
  refine ⟨_, rfl, by decide +kernel, by decide +kernel, rfl, rfl, nofun, rfl, rfl, ?_⟩
  exact ⟨by decide, by decide, by decide⟩

def pairTable : TomlTable :=
  [("username", .string "alice"), ("password_hash", .string "$argon2id$alice")]

def pairSection : AuthSection := ⟨"alice", "$argon2id$alice", []⟩

section Trees

-- Comparing two texts of this library is comparing two trees, which is not decided.
open Classical

theorem userEdit_emptyPair :
    (editedDisk emptyPairTable).get editedPath = some (oneListener emptyPairTable) ∧
    (∃ listener, AdmitsEdit treeLibrary calmWorld addBob (oneListener emptyPairTable)
      (oneListener emptyPairTable) (oneListenerConfig emptyPairSection) 0 listener bobPassword) ∧
    (addBob.deliver treeLibrary calmWorld bobPassword).perform (editedDisk emptyPairTable) =
      (.ok (), editedDisk emptyPairTable) ∧
    calmWorld.Serves editedPath (editedDisk emptyPairTable) ∧
    (editBasicUser treeLibrary calmWorld editedPath addBob).perform (editedDisk emptyPairTable) =
      (.error .unrelated, editedDisk emptyPairTable) := by
  have hget : (editedDisk emptyPairTable).get editedPath = some (oneListener emptyPairTable) := by
    rw [editedDisk, Table.get_put, if_pos rfl]
  have hrefused : prepareEdit treeLibrary calmWorld addBob (oneListener emptyPairTable) =
      .error .unrelated := by decide +kernel
  refine ⟨hget, emptyPair_admits, rfl, calmWorld_serves _, ?_⟩
  have hnamed : (checkUsername addBob.username).mapError UserEditError.username = .ok () := rfl
  have hlocked : calmWorld.locked = true := rfl
  rw [editBasicUser, Transaction.perform_require_ok hnamed,
    Transaction.perform_require_ok (ensure_ok _ hlocked),
    Transaction.perform_bind_ok (Transaction.perform_get _),
    Transaction.perform_require_ok (elim_ok_iff.mpr hget), Transaction.perform_bind,
    Transaction.perform_require, hrefused]

theorem userEdit_exact_pair :
    ∃ disk' text', (editBasicUser treeLibrary calmWorld editedPath addBob).perform
        (editedDisk pairTable) = (.ok (), disk') ∧ disk'.get editedPath = some text' ∧
      parseToml treeLibrary text' = some (oneListenerConfig
        ⟨"", "", [⟨"alice", "$argon2id$alice"⟩, ⟨"bob", "$argon2id$bob"⟩]⟩) := by
  have hget : (editedDisk pairTable).get editedPath = some (oneListener pairTable) := by
    rw [editedDisk, Table.get_put, if_pos rfl]
  have hadmits : AdmitsEdit treeLibrary calmWorld addBob (oneListener pairTable)
    (oneListener pairTable)
      (oneListenerConfig pairSection) 0
      ⟨.v4 0 443, .http3, 1, none, none, none, ⟨⟨pairSection, true, .basic⟩, false⟩⟩
        bobPassword := by
    refine ⟨rfl, by decide +kernel, by decide +kernel, rfl, rfl, nofun, rfl, rfl, ?_⟩
    exact ⟨by decide, by decide, by decide⟩
  exact ((userEdit_exact treeLibrary calmWorld addBob editedPath (editedDisk pairTable)).2 _ _ _ _ _
    _
    pairTable _ hget hadmits rfl rfl (calmWorld_serves _)).mpr rfl

end Trees

end MasqueServer
