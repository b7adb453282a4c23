import MasqueServer.UserEdits

/-!
# What an edit of users means

Which sections of credentials are accepted, what an edit means for the users of a listener, and how
the tables of a document are changed with the sections that are read from them.
-/
namespace MasqueServer

open Option

/-! ### Accepted credentials -/

section Credentials

variable {Key Digest : Type} (p : BasicPrimitives Key Digest)

structure BasicUser.Valid (user : BasicUser) : Prop where
  username : checkUsername user.username = .ok ()
  hash : p.phcAlgorithm user.passwordHash = some "argon2id"

structure ValidUsers (users : List BasicUser) : Prop where
  nonempty : users ≠ []
  length_le : users.length ≤ maxBasicUsersPerListener
  valid : ∀ user ∈ users, user.Valid p
  nodup : (users.map (·.username)).Nodup

/-- A section whose users are written in one way only. -/
structure ValidAuth (auth : AuthSection) : Prop where
  once : auth.users ≠ [] → auth.username = "" ∧ auth.passwordHash = ""
  users : ValidUsers p
    (if auth.users = [] then [⟨auth.username, auth.passwordHash⟩] else auth.users)

variable {p} {keys : ℕ → Option Key}

lemma asBytes_inj {s t : String} : asBytes s = asBytes t ↔ s = t := by
  refine ⟨fun h => ?_, congrArg asBytes⟩
  exact String.toByteArray_inj.mp (ByteArray.ext (Array.toList_inj.mp h))

lemma isOk_iff {ε α : Type} {x : Except ε α} : x.isOk = true ↔ ∃ a, x = .ok a := by
  cases x <;> simp [Except.isOk, Except.toBool]

lemma ite_throw_ok_iff {ε α β : Type} {c : Prop} [Decidable c] {e : ε} {f : β → Except ε α}
    {x : Except ε α} {r : α} : (if c then throw e >>= f else x) = .ok r ↔ ¬c ∧ x = .ok r := by
  by_cases hc : c
  · rw [if_pos hc]
    exact ⟨nofun, fun h => absurd hc h.1⟩
  · rw [if_neg hc, and_iff_right hc]

variable {index : ℕ} {users : BasicAuthenticator} {credentials : List (BasicCredential Key)}
  {entries : List BasicUser}

lemma addEntries_cons_ok_iff {user : BasicUser} {rest : List BasicUser}
    {r : BasicAuthenticator × List (BasicCredential Key)} :
    addEntries p keys index users credentials (user :: rest) = .ok r ↔
      index < maxBasicUsersPerListener ∧ user.Valid p ∧
      users.contains (asBytes user.username) = false ∧ ∃ key, keys index = some key ∧
      addEntries p keys (index + 1) (users.put (asBytes user.username) credentials.length)
        (credentials ++ [⟨user.passwordHash, key⟩]) rest = .ok r := by
  simp only [addEntries, ite_throw_ok_iff, bind_ok_iff, mapError_ok_iff, elim_ok_iff, Nat.not_le,
    ne_eq, Decidable.not_not, Bool.not_eq_true]
  constructor
  · rintro ⟨hindex, ⟨⟩, husername, _, hhash, rfl, key, hkey, hnew, hrest⟩
    exact ⟨hindex, ⟨husername, hhash⟩, hnew, key, hkey, hrest⟩
  · rintro ⟨hindex, ⟨husername, hhash⟩, hnew, key, hkey, hrest⟩
    exact ⟨hindex, (), husername, _, hhash, rfl, key, hkey, hnew, hrest⟩

lemma addEntries_ok {users' : BasicAuthenticator} {credentials' : List (BasicCredential Key)}
    (hindex : index ≤ maxBasicUsersPerListener)
    (h : addEntries p keys index users credentials entries = .ok (users', credentials')) :
    index + entries.length ≤ maxBasicUsersPerListener ∧ (∀ user ∈ entries, user.Valid p) ∧
      (entries.map (·.username)).Nodup ∧
      (∀ user ∈ entries, users.contains (asBytes user.username) = false) ∧
      users'.size = users.size + entries.length := by
  induction entries generalizing index users credentials with
  | nil =>
    cases h
    simpa using hindex
  | cons user rest ih =>
    obtain ⟨hlt, hvalid, hnew, key, -, hrest⟩ := addEntries_cons_ok_iff.mp h
    obtain ⟨hlength, hall, hnodup, hothers, hsize⟩ := ih hlt hrest
    have hdistinct : ∀ other ∈ rest, other.username ≠ user.username ∧
        users.contains (asBytes other.username) = false := by
      intro other hother
      have hput := hothers other hother
      rw [Table.contains_eq_false, Table.get_put] at hput
      split_ifs at hput with heq
      exact ⟨fun hname => heq (congrArg asBytes hname), Table.contains_eq_false.mpr hput⟩
    refine ⟨?_, List.forall_mem_cons.mpr ⟨hvalid, hall⟩, ?_,
      List.forall_mem_cons.mpr ⟨hnew, fun other hother => (hdistinct other hother).2⟩, ?_⟩
    · rw [List.length_cons]
      omega
    · refine List.nodup_cons.mpr ⟨fun hmem => ?_, hnodup⟩
      obtain ⟨other, hother, hname⟩ := List.mem_map.mp hmem
      exact (hdistinct other hother).1 hname
    · rw [hsize, Table.size_put_of_get_eq_none (Table.contains_eq_false.mp hnew), List.length_cons]
      omega

lemma exists_addEntries (hkeys : ∀ i, (keys i).isSome)
    (hlength : index + entries.length ≤ maxBasicUsersPerListener)
    (hvalid : ∀ user ∈ entries, user.Valid p) (hnodup : (entries.map (·.username)).Nodup)
    (hnew : ∀ user ∈ entries, users.contains (asBytes user.username) = false) :
    ∃ r, addEntries p keys index users credentials entries = .ok r := by
  induction entries generalizing index users credentials with
  | nil => exact ⟨_, rfl⟩
  | cons user rest ih =>
    rw [List.length_cons] at hlength
    rw [List.forall_mem_cons] at hvalid hnew
    obtain ⟨hother, hnodup⟩ := List.nodup_cons.mp hnodup
    obtain ⟨key, hkey⟩ := isSome_iff_exists.mp (hkeys index)
    obtain ⟨r, hr⟩ := @ih (index + 1) (users.put (asBytes user.username) credentials.length)
      (credentials ++ [⟨user.passwordHash, key⟩]) (by omega) hvalid.2 hnodup fun other hmem => by
        have hne : asBytes other.username ≠ asBytes user.username := fun heq =>
          hother (List.mem_map.mpr ⟨other, hmem, asBytes_inj.mp heq⟩)
        rw [Table.contains_eq_false, Table.get_put, if_neg hne]
        exact Table.contains_eq_false.mp (hnew.2 other hmem)
    exact ⟨r, addEntries_cons_ok_iff.mpr ⟨by omega, hvalid.1, hnew.1, key, hkey, hr⟩⟩

theorem fromEntries_isOk_iff (hkeys : ∀ i, (keys i).isSome) :
    (fromEntries p keys credentials entries).isOk = true ↔ ValidUsers p entries := by
  simp only [isOk_iff, fromEntries, bind_ok_iff, ite_throw_ok_iff]
  constructor
  · rintro ⟨r, ⟨users, allocated⟩, hadd, hsize, -⟩
    obtain ⟨hlength, hvalid, hnodup, -, hgrown⟩ := addEntries_ok (Nat.zero_le _) hadd
    refine ⟨?_, by omega, hvalid, hnodup⟩
    rintro rfl
    exact hsize hgrown
  · intro h
    have hlength : 0 + entries.length ≤ maxBasicUsersPerListener := by simpa using h.length_le
    obtain ⟨⟨users, allocated⟩, hadd⟩ := @exists_addEntries _ _ p keys 0 ∅ credentials entries hkeys
      hlength h.valid h.nodup fun _ _ => Table.contains_eq_false.mpr (Table.get_empty _)
    obtain ⟨-, -, -, -, hgrown⟩ := addEntries_ok (Nat.zero_le _) hadd
    have hpos := List.length_pos_iff.mpr h.nonempty
    rw [Table.size_empty] at hgrown
    exact ⟨_, (users, allocated), hadd, by simp only; omega, rfl⟩

theorem fromSection_isOk_iff (hkeys : ∀ i, (keys i).isSome) {auth : AuthSection} :
    (fromSection p keys [] auth).isOk = true ↔ ValidAuth p auth := by
  unfold fromSection
  by_cases husers : auth.users = []
  · rw [if_neg (not_not.mpr husers), fromEntries_isOk_iff hkeys]
    refine ⟨fun h => ⟨fun hne => absurd husers hne, ?_⟩, fun h => ?_⟩
    · rwa [if_pos husers]
    · have := h.users
      rwa [if_pos husers] at this
  · rw [if_pos husers]
    by_cases hmixed : auth.username ≠ "" ∨ auth.passwordHash ≠ ""
    · rw [if_pos hmixed]
      refine ⟨nofun, fun h => ?_⟩
      obtain ⟨husername, hhash⟩ := h.once husers
      exact (hmixed.elim (· husername) (· hhash)).elim
    · rw [if_neg hmixed, fromEntries_isOk_iff hkeys]
      rw [not_or, not_not, not_not] at hmixed
      refine ⟨fun h => ⟨fun _ => hmixed, ?_⟩, fun h => ?_⟩
      · rwa [if_neg husers]
      · have := h.users
        rwa [if_neg husers] at this

end Credentials

/-! ### What an edit means -/

namespace UserEdit

def edited (edit : UserEdit) (hash : String) (users : List BasicUser) : List BasicUser :=
  match edit with
  | .add request => users ++ [⟨request.username, hash⟩]
  | .setPassword request => users.map fun user =>
      if user.username = request.username then { user with passwordHash := hash } else user
  | .remove _ username => users.filter (·.username ≠ username)

def Allowed {Key Digest : Type} (p : BasicPrimitives Key Digest) (edit : UserEdit) (hash : String)
    (users : List BasicUser) : Prop :=
  match edit with
  | .add request => request.username ∉ users.map (·.username) ∧
      users.length < maxBasicUsersPerListener ∧ p.phcAlgorithm hash = some "argon2id"
  | .setPassword request => request.username ∈ users.map (·.username) ∧
      p.phcAlgorithm hash = some "argon2id"
  | .remove _ username => username ∈ users.map (·.username) ∧ 1 < users.length

variable {Key Digest : Type} {p : BasicPrimitives Key Digest} {edit : UserEdit} {hash : String}
  {users : List BasicUser}

lemma findIdx?_username {name : String} (h : name ∈ users.map (·.username)) :
    ∃ i user, users.findIdx? (·.username = name) = some i ∧ users[i]? = some user ∧
      user.username = name := by
  obtain ⟨user, huser, rfl⟩ := List.mem_map.mp h
  have hsome : (users.findIdx? (·.username = user.username)).isSome := by
    rw [List.findIdx?_isSome, List.any_eq_true]
    exact ⟨user, huser, decide_eq_true rfl⟩
  obtain ⟨i, hi⟩ := isSome_iff_exists.mp hsome
  obtain ⟨hlt, hname, -⟩ := List.findIdx?_eq_some_iff_getElem.mp hi
  exact ⟨i, users[i], hi, List.getElem?_eq_getElem hlt, of_decide_eq_true hname⟩

lemma findIdx?_username_eq_none {name : String} (h : name ∉ users.map (·.username)) :
    users.findIdx? (·.username = name) = none := by
  refine List.findIdx?_eq_none_iff.mpr fun user huser => decide_eq_false fun hname => h ?_
  exact List.mem_map.mpr ⟨user, huser, hname⟩

lemma check_of_allowed (h : edit.Allowed p hash users) :
    edit.check (users.findIdx? (·.username = edit.username)) users.length = .ok () := by
  cases edit with
  | add request =>
    rw [username, findIdx?_username_eq_none h.1]
    simp [check, bind_ok_iff, h.2.1]
  | setPassword request =>
    obtain ⟨i, user, hi, -⟩ := findIdx?_username h.1
    rw [username, hi]
    rfl
  | remove selector name =>
    obtain ⟨i, user, hi, -⟩ := findIdx?_username h.1
    rw [username, hi]
    simp [check, bind_ok_iff, h.2]

theorem applyTo_eq_edited (h : edit.Allowed p hash users)
    (hnodup : (users.map (·.username)).Nodup) :
    edit.applyTo hash (users.findIdx? (·.username = edit.username)) users =
      edit.edited hash users := by
  cases edit with
  | add request => rfl
  | setPassword request =>
    obtain ⟨i, user, hi, huser, hname⟩ := findIdx?_username h.1
    rw [applyTo, username, hi, elim_some, modify_eq_map hnodup huser, edited, hname]
  | remove selector name =>
    obtain ⟨i, user, hi, huser, hname⟩ := findIdx?_username h.1
    rw [applyTo, username, hi, elim_some, eraseIdx_eq_filter hnodup huser, edited, hname]

def sizeAfter (edit : UserEdit) (size : ℕ) : ℕ :=
  match edit with
  | .add _ => size + 1
  | .setPassword _ => size
  | .remove _ _ => size - 1

lemma sizeAfter_succ (edit : UserEdit) {size : ℕ} (h : 0 < size) :
    0 < edit.sizeAfter (size + 1) ∧ edit.sizeAfter (size + 1) ≠ edit.sizeAfter size := by
  cases edit with
  | add request => exact ⟨Nat.succ_pos _, by simp only [sizeAfter]; omega⟩
  | setPassword request => exact ⟨Nat.succ_pos _, by simp only [sizeAfter]; omega⟩
  | remove selector name => exact ⟨h, by simp only [sizeAfter]; omega⟩

lemma edited_length (h : edit.Allowed p hash users) (hnodup : (users.map (·.username)).Nodup) :
    (edit.edited hash users).length = edit.sizeAfter users.length := by
  cases edit with
  | add request => rw [edited, List.length_append, List.length_singleton, sizeAfter]
  | setPassword request => rw [edited, List.length_map, sizeAfter]
  | remove selector name =>
    obtain ⟨i, user, hi, huser, rfl⟩ := findIdx?_username h.1
    rw [edited, ← eraseIdx_eq_filter hnodup huser, sizeAfter]
    exact List.length_eraseIdx_of_lt (List.getElem?_eq_some_iff.mp huser).1

theorem edited_valid (hvalid : ValidUsers p users) (hname : checkUsername edit.username = .ok ())
    (h : edit.Allowed p hash users) : ValidUsers p (edit.edited hash users) := by
  cases edit with
  | add request =>
    obtain ⟨hnew, hlength, hhash⟩ := h
    refine ⟨by simp [edited], ?_, ?_, ?_⟩
    · rw [edited, List.length_append, List.length_singleton]
      omega
    · intro user huser
      obtain huser | huser := List.mem_append.mp huser
      · exact hvalid.valid user huser
      · rw [List.mem_singleton.mp huser]
        exact ⟨hname, hhash⟩
    · rw [edited, List.map_append, List.map_singleton, ← List.concat_eq_append]
      exact hvalid.nodup.concat hnew
  | setPassword request =>
    have hnames : ((UserEdit.setPassword request).edited hash users).map (·.username) =
        users.map (·.username) := by
      rw [edited, List.map_map]
      refine List.map_congr_left fun user _ => ?_
      rw [Function.comp_apply]
      split_ifs <;> rfl
    refine ⟨?_, ?_, ?_, hnames ▸ hvalid.nodup⟩
    · rw [edited, ne_eq, List.map_eq_nil_iff]
      exact hvalid.nonempty
    · rw [edited, List.length_map]
      exact hvalid.length_le
    · intro user huser
      obtain ⟨before, hbefore, rfl⟩ := List.mem_map.mp huser
      have hold := hvalid.valid before hbefore
      split_ifs
      · exact ⟨hold.username, h.2⟩
      · exact hold
  | remove selector name =>
    have hlength := edited_length h hvalid.nodup
    rw [sizeAfter] at hlength
    have hle := hvalid.length_le
    have htwo : 1 < users.length := h.2
    refine ⟨List.ne_nil_of_length_pos (by omega), by omega,
      fun user huser => hvalid.valid user (List.mem_of_mem_filter huser), ?_⟩
    exact hvalid.nodup.sublist (List.filter_sublist.map _)

end UserEdit

/-! ### Documents and configurations -/

section Fields

open TomlTable

variable {table : TomlTable} {key : String} {keys : List String} {item : TomlItem}

lemma hasOnly_set (h : hasOnly table keys = true) (hkey : key ∈ keys) :
    hasOnly (set table key item) keys = true := by
  refine List.all_eq_true.mpr fun entry hentry => ?_
  obtain rfl | hentry := mem_set hentry
  · exact decide_eq_true hkey
  · exact List.all_eq_true.mp h entry hentry

lemma hasOnly_remove (h : hasOnly table keys = true) (key : String) :
    hasOnly (remove table key) keys = true :=
  List.all_eq_true.mpr fun entry hentry =>
    List.all_eq_true.mp h entry (List.mem_of_mem_filter hentry)

lemma field_congr {α : Type} {table' : TomlTable} (h : get table' key = get table key) (default : α)
    (decode : TomlItem → Option α) :
    field table' key default decode = field table key default decode := by
  rw [field, field, h]

end Fields

def Spells (table : TomlTable) (user : BasicUser) : Prop :=
  decodeUser table = some user ∧ tableUsername table = some user.username

section Users

open TomlTable

variable {table : TomlTable} {user : BasicUser}

lemma get_basicUserTable (username hash key : String) :
    get (basicUserTable username hash) key =
      if key = "password_hash" then some (.string hash)
      else if key = "username" then some (.string username) else none := by
  rw [basicUserTable, get_set, get_set, get_nil]

lemma spells_basicUserTable (username hash : String) :
    Spells (basicUserTable username hash) ⟨username, hash⟩ := by
  have honly : hasOnly (basicUserTable username hash) ["username", "password_hash"] = true :=
    hasOnly_set (hasOnly_set rfl (by simp)) (by simp)
  refine ⟨decodeUser_eq_some_iff.mpr ⟨honly, ?_, ?_⟩, ?_⟩
  · rw [field, get_basicUserTable]
    rfl
  · rw [field, get_basicUserTable]
    rfl
  · rw [tableUsername, get_basicUserTable]
    rfl

lemma wellFormed_basicUserTable {isValue : String → Bool} (username hash : String) :
    wellFormedEntries isValue (basicUserTable username hash) = true :=
  wellFormed_set (wellFormed_set (by rw [wellFormedEntries]) (by rw [TomlItem.wellFormed]))
    (by rw [TomlItem.wellFormed])

lemma spells_set_hash (h : Spells table user) (hash : String) :
    Spells (set table "password_hash" (.string hash)) { user with passwordHash := hash } := by
  obtain ⟨honly, husername, -⟩ := decodeUser_eq_some_iff.mp h.1
  have hname : get (set table "password_hash" (.string hash)) "username" =
    get table "username" := by
    rw [get_set, if_neg (by decide)]
  refine ⟨decodeUser_eq_some_iff.mpr ⟨hasOnly_set honly (by simp), ?_, ?_⟩, ?_⟩
  · rwa [field_congr hname]
  · rw [field, get_set_self]
    rfl
  · rw [tableUsername, hname]
    exact h.2

lemma spells_of_decodeUser (h : decodeUser table = some user) (hname : user.username ≠ "") :
    Spells table user := by
  refine ⟨h, ?_⟩
  have husername := (decodeUser_eq_some_iff.mp h).2.1
  rw [field] at husername
  rw [tableUsername]
  cases hget : get table "username" with
  | none =>
    rw [hget] at husername
    exact absurd (some.inj husername).symm hname
  | some item =>
    rw [hget] at husername
    exact husername

namespace UserEdit

variable {edit : UserEdit} {hash : String} {tables tables' : List TomlTable} {users :
  List BasicUser}

variable (h : List.Forall₂ Spells tables users)
include h

lemma findIdx?_tables (name : String) :
    (tables.findIdx? fun table => tableUsername table = some name) =
      users.findIdx? (·.username = name) :=
  findIdx?_eq_of_forall₂ h fun table user hspells =>
    decide_eq_decide.mpr (by rw [hspells.2, some.injEq])

theorem applyToTables_spells (hok : edit.applyToTables hash tables = .ok tables') :
    List.Forall₂ Spells tables'
      (edit.applyTo hash (users.findIdx? (·.username = edit.username)) users) := by
  cases edit with
  | add request =>
    cases hok
    exact List.rel_append h (.cons (spells_basicUserTable _ _) .nil)
  | setPassword request =>
    simp only [applyToTables, findIdx?_tables h, bind_ok_iff, elim_ok_iff] at hok
    obtain ⟨position, hposition, hok⟩ := hok
    cases hok
    rw [applyTo, username, hposition]
    exact forall₂_modify h (fun _ _ hspells => spells_set_hash hspells hash) position
  | remove selector name =>
    simp only [applyToTables, findIdx?_tables h, bind_ok_iff, elim_ok_iff] at hok
    obtain ⟨position, hposition, hok⟩ := hok
    cases hok
    rw [applyTo, username, hposition]
    exact forall₂_eraseIdx h position

lemma exists_applyToTables
    (hcheck : edit.check (users.findIdx? (·.username = edit.username)) users.length = .ok ()) :
    ∃ tables', edit.applyToTables hash tables = .ok tables' := by
  cases edit with
  | add request => exact ⟨_, rfl⟩
  | setPassword request =>
    rw [check, ensure_ok_iff] at hcheck
    obtain ⟨position, hposition⟩ := isSome_iff_exists.mp hcheck
    simp only [applyToTables, findIdx?_tables h, bind_ok_iff, elim_ok_iff]
    exact ⟨_, position, hposition, rfl⟩
  | remove selector name =>
    simp only [check, bind_ok_iff, ensure_ok_iff] at hcheck
    obtain ⟨-, hfound, -⟩ := hcheck
    obtain ⟨position, hposition⟩ := isSome_iff_exists.mp hfound
    simp only [applyToTables, findIdx?_tables h, bind_ok_iff, elim_ok_iff]
    exact ⟨_, position, hposition, rfl⟩

omit h

lemma length_of_applyToTables (hok : edit.applyToTables hash tables = .ok tables') :
    tables'.length = edit.sizeAfter tables.length := by
  cases edit with
  | add request =>
    cases hok
    rw [List.length_append, List.length_singleton, sizeAfter]
  | setPassword request =>
    simp only [applyToTables, bind_ok_iff, elim_ok_iff] at hok
    obtain ⟨position, -, hok⟩ := hok
    cases hok
    rw [List.length_modify, sizeAfter]
  | remove selector name =>
    simp only [applyToTables, bind_ok_iff, elim_ok_iff] at hok
    obtain ⟨position, hposition, hok⟩ := hok
    cases hok
    rw [sizeAfter]
    exact List.length_eraseIdx_of_lt (List.findIdx?_eq_some_iff_getElem.mp hposition).1

lemma wellFormed_of_applyToTables {isValue : String → Bool}
    (h : ∀ element ∈ tables, wellFormedEntries isValue element = true)
    (hok : edit.applyToTables hash tables = .ok tables') :
    ∀ element ∈ tables', wellFormedEntries isValue element = true := by
  cases edit with
  | add request =>
    cases hok
    exact List.forall_mem_append.mpr
      ⟨h, List.forall_mem_singleton.mpr (wellFormed_basicUserTable _ _)⟩
  | setPassword request =>
    simp only [applyToTables, bind_ok_iff, elim_ok_iff] at hok
    obtain ⟨position, -, hok⟩ := hok
    cases hok
    exact forall_mem_modify h
      (fun element helement => wellFormed_set (h element helement) (by rw [TomlItem.wellFormed]))
        position
  | remove selector name =>
    simp only [applyToTables, bind_ok_iff, elim_ok_iff] at hok
    obtain ⟨position, -, hok⟩ := hok
    cases hok
    exact fun element helement => h element (List.mem_of_mem_eraseIdx helement)

end UserEdit

end Users

/-! ### The authentication table -/

def ConfigAuth.withUsers (auth : ConfigAuth) (users : List BasicUser) : ConfigAuth :=
  { auth with username := "", passwordHash := "", users := users }

section Auth

open TomlTable

def withUsersTable (table : TomlTable) (users : List TomlTable) : TomlTable :=
  remove (remove (set table "users" (.tables users)) "username") "password_hash"

/-- The users of a table are written in one of the two ways only, whatever the other way says. -/
def speltOnce (table : TomlTable) : Bool :=
  (get table "users").isNone ||
    ((get table "username").isNone && (get table "password_hash").isNone)

variable {table : TomlTable} {auth : ConfigAuth} {tables : List TomlTable} {users : List BasicUser}

lemma get_withUsersTable (key : String) :
    get (withUsersTable table tables) key =
      if key = "password_hash" then none else if key = "username" then none
      else if key = "users" then some (.tables tables) else get table key := by
  rw [withUsersTable, get_remove, get_remove, get_set]

theorem decodeAuth_withUsersTable (h : decodeAuth table = some auth)
    (husers : List.Forall₂ Spells tables users) :
    decodeAuth (withUsersTable table tables) = some (auth.withUsers users) := by
  obtain ⟨honly, henabled, hmode, hstealth, -, -, -⟩ := decodeAuth_eq_some_iff.mp h
  have hkeep : ∀ key, key ≠ "password_hash" → key ≠ "username" → key ≠ "users" →
      get (withUsersTable table tables) key = get table key := by
    intro key hhash hname hlist
    rw [get_withUsersTable, if_neg hhash, if_neg hname, if_neg hlist]
  refine decodeAuth_eq_some_iff.mpr ⟨?_, ?_, ?_, ?_, ?_, ?_, ?_⟩
  · exact hasOnly_remove (hasOnly_remove (hasOnly_set honly (by simp)) _) _
  · rwa [field_congr (hkeep "enabled" (by decide) (by decide) (by decide))]
  · rwa [field_congr (hkeep "mode" (by decide) (by decide) (by decide))]
  · rwa [field_congr (hkeep "stealth" (by decide) (by decide) (by decide))]
  · rw [field, get_withUsersTable]
    rfl
  · rw [field, get_withUsersTable]
    rfl
  · rw [field, get_withUsersTable]
    exact mapM_eq_some_iff.mpr (husers.imp fun _ _ hspells => hspells.1)

lemma wellFormed_withUsersTable {isValue : String → Bool}
    (htable : wellFormedEntries isValue table = true) (hne : tables ≠ [])
    (htables : ∀ element ∈ tables, wellFormedEntries isValue element = true) :
    wellFormedEntries isValue (withUsersTable table tables) = true := by
  refine wellFormed_remove (wellFormed_remove (wellFormed_set htable ?_) _) _
  rw [TomlItem.wellFormed, Bool.and_eq_true, Bool.not_eq_true', List.isEmpty_eq_false_iff,
    wellFormedElements_iff]
  exact ⟨hne, htables⟩

lemma set_canonical (tables' : List TomlTable) :
    set (remove (remove (set table "users" (.tables tables)) "username") "password_hash") "users"
      (.tables tables') = withUsersTable table tables' := by
  rw [set_remove _ _ _ _ (by decide), set_remove _ _ _ _ (by decide), set_set, withUsersTable]

lemma checkUsername_ne_empty {name : String} (h : checkUsername name = .ok ()) : name ≠ "" := by
  rintro rfl
  cases h

lemma field_string {key value : String} (h : field table key "" TomlItem.asString = some value) :
    (get table key = none ∧ value = "") ∨ (get table key).bind TomlItem.asString = some value := by
  rw [field] at h
  cases hget : get table key with
  | none =>
    rw [hget] at h
    exact .inl ⟨rfl, (some.inj h).symm⟩
  | some item =>
    rw [hget] at h
    exact .inr h

/-- What the tables of users hold, and that a table of users put in their place leaves no legacy
pair. -/
structure Canonical (isValue : String → Bool) (table : TomlTable)
    (result : TomlTable × List TomlTable) (users : List BasicUser) : Prop where
  spells : List.Forall₂ Spells result.2 users
  set_users : ∀ tables', set result.1 "users" (.tables tables') = withUsersTable table tables'
  wellFormed : ∀ element ∈ result.2, wellFormedEntries isValue element = true

section Canonical

variable {isValue : String → Bool} {Key Digest : Type} {p : BasicPrimitives Key Digest}

variable (hdecode : decodeAuth table = some auth)
include hdecode

variable (hvalid : ValidAuth p auth.toAuthSection)
include hvalid

lemma canonicalUsersTable_pair (hempty : p.phcAlgorithm "" = none)
    (hget : get table "users" = none) :
    auth.users = [] ∧ ∃ result, canonicalUsersTable table = .ok result ∧
      Canonical isValue table result [⟨auth.username, auth.passwordHash⟩] := by
  obtain ⟨-, -, -, -, husername, hhash, husers⟩ := decodeAuth_eq_some_iff.mp hdecode
  rw [field, hget] at husers
  have hnil : auth.users = [] := (some.inj husers).symm
  have hpair := hvalid.users
  rw [if_pos hnil] at hpair
  have huser := hpair.valid _ List.mem_cons_self
  have hname := (field_string husername).resolve_left fun h =>
    checkUsername_ne_empty huser.username h.2
  have hpassword := (field_string hhash).resolve_left fun h => by
    have := huser.hash
    rw [h.2, hempty] at this
    cases this
  refine ⟨hnil, (remove (remove (set table "users" (.tables [])) "username") "password_hash",
    [basicUserTable auth.username auth.passwordHash]), ?_, ?_, set_canonical, ?_⟩
  · simp [canonicalUsersTable, hget, hname, hpassword, TomlItem.asTables, bind, Except.bind]
  · exact .cons (spells_basicUserTable _ _) .nil
  · exact List.forall_mem_singleton.mpr (wellFormed_basicUserTable _ _)

variable (hwell : wellFormedEntries isValue table = true)
include hwell

lemma spells_users {item : TomlItem} (hget : get table "users" = some item) :
    ∃ tables, item = .tables tables ∧ List.Forall₂ Spells tables auth.users ∧ auth.users ≠ [] ∧
      ∀ element ∈ tables, wellFormedEntries isValue element = true := by
  obtain ⟨-, -, -, -, -, -, husers⟩ := decodeAuth_eq_some_iff.mp hdecode
  rw [field, hget, elim_some, bind_eq_some_iff] at husers
  obtain ⟨tables, htables, husers⟩ := husers
  obtain rfl : item = .tables tables := by
    cases item <;> cases htables
    rfl
  have hitem := wellFormed_get hwell hget
  rw [TomlItem.wellFormed, Bool.and_eq_true, Bool.not_eq_true', List.isEmpty_eq_false_iff,
    wellFormedElements_iff] at hitem
  have hrelated := mapM_eq_some_iff.mp husers
  have hne : auth.users ≠ [] := fun hnil =>
    hitem.1 (List.length_eq_zero_iff.mp (hrelated.length_eq.trans (by rw [hnil]; rfl)))
  have hall := hvalid.users
  rw [if_neg hne] at hall
  refine ⟨tables, rfl, forall₂_imp_of_mem hrelated fun _ user huser hread => ?_, hne, hitem.2⟩
  exact spells_of_decodeUser hread (checkUsername_ne_empty (hall.valid user huser).username)

lemma canonicalUsersTable_users {item : TomlItem} (hget : get table "users" = some item)
    (hname : get table "username" = none) (hhash : get table "password_hash" = none) :
    auth.users ≠ [] ∧ ∃ result, canonicalUsersTable table = .ok result ∧
      Canonical isValue table result auth.users := by
  obtain ⟨tables, rfl, hspells, hne, helements⟩ := spells_users hdecode hvalid hwell hget
  refine ⟨hne, (table, tables), ?_, hspells, fun tables' => ?_, helements⟩
  · simp [canonicalUsersTable, hget, hname, hhash, TomlItem.asTables, bind, Except.bind]
  · have hset : ∀ key, key ≠ "users" → get table key = none →
        get (set table "users" (.tables tables')) key = none := by
      intro key hkey habsent
      rw [get_set, if_neg hkey, habsent]
    rw [withUsersTable, remove_eq_self (hset "username" (by decide) hname),
      remove_eq_self (hset "password_hash" (by decide) hhash)]

lemma canonicalUsersTable_both (hboth : speltOnce table = false)
    {result : TomlTable × List TomlTable} (hok : canonicalUsersTable table = .ok result) :
    auth.users ≠ [] ∧ Canonical isValue table result (auth.users ++ [⟨"", ""⟩]) := by
  obtain ⟨-, -, -, -, husername, hhash, -⟩ := decodeAuth_eq_some_iff.mp hdecode
  simp only [speltOnce, Bool.or_eq_false_iff, Bool.and_eq_false_iff, isNone_eq_false_iff,
    isSome_iff_exists] at hboth
  obtain ⟨⟨item, hget⟩, hlegacy⟩ := hboth
  obtain ⟨tables, rfl, hspells, hne, helements⟩ := spells_users hdecode hvalid hwell hget
  obtain ⟨hblank, hblank'⟩ := hvalid.once hne
  rw [hblank] at husername
  rw [hblank'] at hhash
  refine ⟨hne, ?_⟩
  simp only [canonicalUsersTable, hget, isSome_some, if_true, bind_some,
    TomlItem.asTables, elim_some, bind_ok_iff, Except.ok.injEq] at hok
  obtain ⟨_, rfl, hok⟩ := hok
  obtain ⟨hmissing, -⟩ | hname := field_string husername
  · obtain ⟨hmissing', -⟩ | hpassword := field_string hhash
    · simp [hmissing, hmissing'] at hlegacy
    · simp [hmissing, hpassword] at hok
  · obtain ⟨hmissing', -⟩ | hpassword := field_string hhash
    · simp [hmissing', hname] at hok
    · simp only [hname, hpassword, Except.ok.injEq] at hok
      subst hok
      refine ⟨List.rel_append hspells (.cons (spells_basicUserTable "" "") .nil), ?_, ?_⟩
      · intro tables'
        rw [set_remove _ _ _ _ (by decide), set_remove _ _ _ _ (by decide), withUsersTable]
      · exact List.forall_mem_append.mpr
          ⟨helements, List.forall_mem_singleton.mpr (wellFormed_basicUserTable _ _)⟩

end Canonical

end Auth

/-! ### The whole document -/

section Documents

open TomlTable

variable {Targets Rest : Type} {decodeTargets : TomlItem → Option Targets}
  {decodeRest : TomlTable → Option Rest} {document table : TomlTable}
  {config : FileConfig Targets Rest} {listener : ListenerBlock Targets} {auth :
    ConfigAuth} {index : ℕ}

lemma decodeConfig_eq_some_iff :
    decodeConfig decodeTargets decodeRest document = some config ↔
      (∃ elements, (get document "listeners").bind TomlItem.asTables = some elements ∧
        List.Forall₂ (fun element listener => decodeListener decodeTargets element = some listener)
          elements config.listeners) ∧
      decodeRest (remove document "listeners") = some config.rest := by
  simp only [decodeConfig, required, bind_eq_bind, Option.pure_def, bind_eq_some_iff,
    mapM_eq_some_iff, some.injEq]
  constructor
  · rintro ⟨listeners, ⟨item, hitem, elements, helements, hlisteners⟩, rest, hrest, rfl⟩
    exact ⟨⟨elements, ⟨item, hitem, helements⟩, hlisteners⟩, hrest⟩
  · rintro ⟨⟨elements, ⟨item, hitem, helements⟩, hlisteners⟩, hrest⟩
    exact ⟨_, ⟨item, hitem, elements, helements, hlisteners⟩, _, hrest, rfl⟩

variable {elements : List TomlTable} {isValue : String → Bool}

lemma eq_tables_of_asTables {item : TomlItem} (h : item.asTables = some elements) :
    item = .tables elements := by
  cases item <;> cases h
  rfl

lemma eq_table_of_asTable {item : TomlItem} (h : item.asTable = some table) :
    item = .table table := by
  cases item <;> cases h
  rfl

lemma wellFormed_listeners (hwell : wellFormedEntries isValue document = true)
    (h : (get document "listeners").bind TomlItem.asTables = some elements) :
    elements ≠ [] ∧ ∀ element ∈ elements, wellFormedEntries isValue element = true := by
  obtain ⟨item, hget, hitem⟩ := bind_eq_some_iff.mp h
  rw [eq_tables_of_asTables hitem] at hget
  have hlisteners := wellFormed_get hwell hget
  rwa [TomlItem.wellFormed, Bool.and_eq_true, Bool.not_eq_true', List.isEmpty_eq_false_iff,
    wellFormedElements_iff] at hlisteners

lemma exists_editableAuthTable (h : decodeConfig decodeTargets decodeRest document = some config)
    (hlistener : config.listeners[index]? = some listener) :
    ∃ table, editableAuthTable document index = some table ∧
      decodeAuth table = some listener.auth ∧
      ∀ isValue, wellFormedEntries isValue document = true →
        wellFormedEntries isValue table = true := by
  obtain ⟨⟨elements, helements, hlisteners⟩, -⟩ := decodeConfig_eq_some_iff.mp h
  obtain ⟨element, helement, hdecode⟩ := forall₂_getElem? hlisteners hlistener
  obtain ⟨-, -, -, -, -, -, -, hauth⟩ := decodeListener_eq_some_iff.mp hdecode
  rw [required] at hauth
  obtain ⟨item, hitem, hauth⟩ := bind_eq_some_iff.mp hauth
  obtain ⟨table, htable, hauth⟩ := bind_eq_some_iff.mp hauth
  refine ⟨table, ?_, hauth, fun isValue hwell => ?_⟩
  · simp only [editableAuthTable, helements, helement, hitem, htable, bind_eq_bind,
      bind_some]
  · have hwellElement := (wellFormed_listeners hwell helements).2 element
      (List.mem_of_getElem? helement)
    have hwellItem := wellFormed_get hwellElement hitem
    rwa [eq_table_of_asTable htable, TomlItem.wellFormed] at hwellItem

lemma decodeListener_setAuth (h : decodeListener decodeTargets document = some listener)
    (hauth : decodeAuth table = some auth) :
    decodeListener decodeTargets (set document "auth" (.table table)) =
      some { listener with auth } := by
  obtain ⟨honly, haddr, htransport, hshards, hsize, htcp, hudp, -⟩ :=
    decodeListener_eq_some_iff.mp h
  have hkeep : ∀ key, key ≠ "auth" →
      get (set document "auth" (.table table)) key = get document key := by
    intro key hkey
    rw [get_set, if_neg hkey]
  refine decodeListener_eq_some_iff.mpr ⟨hasOnly_set honly (by simp), ?_, ?_, ?_, ?_, ?_, ?_, ?_⟩
  · rwa [required, hkeep "listen_addr" (by decide), ← required]
  · rwa [field_congr (hkeep "transport" (by decide))]
  · rwa [field_congr (hkeep "shards" (by decide))]
  · exact (field_congr (hkeep "max_datagram_size" (by decide)) none _).trans hsize
  · exact (field_congr (hkeep "tcp_targets" (by decide)) none _).trans htcp
  · exact (field_congr (hkeep "udp_targets" (by decide)) none _).trans hudp
  · rw [required, get_set_self]
    exact hauth

theorem decodeConfig_setAuthTable (h : decodeConfig decodeTargets decodeRest document = some config)
    (hauth : decodeAuth table = some auth) (index : ℕ) :
    decodeConfig decodeTargets decodeRest (setAuthTable document index table) =
      some (config.setAuth index auth) := by
  obtain ⟨⟨elements, helements, hlisteners⟩, hrest⟩ := decodeConfig_eq_some_iff.mp h
  rw [setAuthTable, helements, elim_some]
  refine decodeConfig_eq_some_iff.mpr ⟨⟨_, by rw [get_set_self]; rfl, ?_⟩, ?_⟩
  · exact forall₂_modify hlisteners (fun _ _ hdecode => decodeListener_setAuth hdecode hauth) index
  · rwa [remove_set]

lemma wellFormed_setAuthTable (hwell : wellFormedEntries isValue document = true)
    (htable : wellFormedEntries isValue table = true) (index : ℕ) :
    wellFormedEntries isValue (setAuthTable document index table) = true := by
  rw [setAuthTable]
  cases helements : (get document "listeners").bind TomlItem.asTables with
  | none => exact hwell
  | some elements =>
    obtain ⟨hne, hall⟩ := wellFormed_listeners hwell helements
    refine wellFormed_set hwell ?_
    rw [TomlItem.wellFormed, Bool.and_eq_true, Bool.not_eq_true', List.isEmpty_eq_false_iff,
      wellFormedElements_iff]
    refine ⟨?_, forall_mem_modify hall (fun element helement => ?_) index⟩
    · rwa [ne_eq, List.modify_eq_nil_iff]
    · exact wellFormed_set (hall element helement) (by rwa [TomlItem.wellFormed])

end Documents

/-! ### The whole configuration -/

section Configuration

variable {Text Targets Rest Key Digest : Type} {lib : ConfigLibrary Text Targets Rest Key Digest}
  {config : FileConfig Targets Rest} {listener : ListenerBlock Targets} {index : ℕ}

variable {keys : ℕ → ℕ → Option Key} {users : List BasicUser}

theorem validateConfig_iff (hkeys : ∀ l i, (keys l i).isSome) :
    validateConfig lib keys config = true ↔
      lib.checks config.withoutCredentials = true ∧ ∀ listener ∈ config.listeners,
        listener.auth.basicEnabled = true → ValidAuth lib.basic listener.auth.toAuthSection := by
  rw [validateConfig, Bool.and_eq_true, List.all_eq_true]
  refine and_congr_right fun _ => ⟨fun h listener hmem hbasic => ?_, fun h => ?_⟩
  · obtain ⟨i, hi⟩ := List.mem_iff_getElem?.mp hmem
    have hok := h (listener, i) (List.mem_zipIdx_iff_getElem?.mpr hi)
    rw [hbasic, Bool.not_true, Bool.false_or] at hok
    exact (fromSection_isOk_iff (hkeys i)).mp hok
  · rintro ⟨listener, i⟩ hmem
    have hi := List.mem_zipIdx_iff_getElem?.mp hmem
    cases hbasic : listener.auth.basicEnabled with
    | false => rfl
    | true =>
      rw [Bool.not_true, Bool.false_or]
      exact (fromSection_isOk_iff (hkeys i)).mpr (h listener (List.mem_of_getElem? hi) hbasic)

lemma selectBasicListener_basic {selector : BasicListenerSelector}
    (h : selectBasicListener config selector = .ok index)
    (hlistener : config.listeners[index]? = some listener) :
    listener.auth.basicEnabled = true := by
  unfold selectBasicListener at h
  split at h
  · rename_i chosen hmatches
    cases h
    have hmem : index ∈ (config.listeners.zipIdx.filter (selector.matches ·.1)).map Prod.snd := by
      rw [hmatches]
      exact List.mem_cons_self
    obtain ⟨⟨found, i⟩, hfound, rfl⟩ := List.mem_map.mp hmem
    obtain ⟨hzip, hmatch⟩ := List.mem_filter.mp hfound
    obtain rfl : found = listener :=
      some.inj ((List.mem_zipIdx_iff_getElem?.mp hzip).symm.trans hlistener)
    rw [BasicListenerSelector.matches, Bool.and_eq_true, Bool.and_eq_true] at hmatch
    exact hmatch.1.1
  · cases h
  · cases h

variable (hlistener : config.listeners[index]? = some listener)
include hlistener

lemma mem_setAuth {auth : ConfigAuth} {other : ListenerBlock Targets}
    (h : other ∈ (config.setAuth index auth).listeners) :
    other ∈ config.listeners ∨ other = { listener with auth } := by
  obtain ⟨i, hi⟩ := List.mem_iff_getElem?.mp h
  rw [FileConfig.setAuth, List.getElem?_modify] at hi
  obtain ⟨before, hbefore, rfl⟩ := map_eq_some_iff.mp hi
  split_ifs with heq
  · rw [← heq, hlistener] at hbefore
    cases hbefore
    exact .inr rfl
  · exact .inl (List.mem_of_getElem? hbefore)

lemma withoutCredentials_setAuth (users : List BasicUser) :
    (config.setAuth index (listener.auth.withUsers users)).withoutCredentials =
      config.withoutCredentials := by
  rw [FileConfig.withoutCredentials, FileConfig.withoutCredentials, FileConfig.mk.injEq]
  refine ⟨List.ext_getElem? fun i => ?_, rfl⟩
  rw [List.getElem?_map, List.getElem?_map, FileConfig.setAuth, List.getElem?_modify]
  cases hi : config.listeners[i]? with
  | none => rfl
  | some other =>
    simp only [Option.map_eq_map, map_some]
    split_ifs with heq
    · rw [← heq, hlistener] at hi
      cases hi
      rfl
    · rfl

lemma setAuth_injective {a b : ConfigAuth} (h : config.setAuth index a = config.setAuth index b) :
    a = b := by
  have hat := congrArg (fun config => config.listeners[index]?.map ListenerBlock.auth) h
  simpa [FileConfig.setAuth, hlistener] using hat

omit hlistener

section Section

variable {auth : ConfigAuth}

lemma basicUsers_eq (hbasic : auth.basicEnabled = true) :
    auth.basicUsers = if auth.users =
      [] then [⟨auth.username, auth.passwordHash⟩] else auth.users := by
  rw [ListenerAuth.basicUsers, if_pos hbasic]

lemma migrateLegacyBasicUser_eq (hbasic : auth.basicEnabled = true)
    (hvalid : ValidAuth lib.basic auth.toAuthSection) :
    migrateLegacyBasicUser auth = auth.withUsers auth.basicUsers := by
  rw [migrateLegacyBasicUser, basicUsers_eq hbasic]
  by_cases husers : auth.users = []
  · rw [if_pos husers, if_pos husers, ConfigAuth.withUsers]
  · rw [if_neg husers, if_neg husers]
    obtain ⟨hname, hhash⟩ := hvalid.once husers
    obtain ⟨⟨⟨name, hash, users⟩, enabled, mode⟩, stealth⟩ := auth
    cases hname
    cases hhash
    rfl

end Section

lemma validAuth_withUsers {auth : ConfigAuth} (husers : ValidUsers lib.basic users) :
    ValidAuth lib.basic (auth.withUsers users).toAuthSection := by
  refine ⟨fun _ => ⟨rfl, rfl⟩, ?_⟩
  change ValidUsers lib.basic (if users = [] then _ else users)
  rwa [if_neg husers.nonempty]

theorem validateConfig_setAuth {keysAgain : ℕ → ℕ → Option Key} (hkeys : ∀ l i, (keys l i).isSome)
    (hkeysAgain : ∀ l i, (keysAgain l i).isSome) (hvalid : validateConfig lib keys config = true)
    (hlistener : config.listeners[index]? = some listener) (husers : ValidUsers lib.basic users) :
    validateConfig lib keysAgain (config.setAuth index (listener.auth.withUsers users)) = true := by
  rw [validateConfig_iff hkeys] at hvalid
  rw [validateConfig_iff hkeysAgain, withoutCredentials_setAuth hlistener]
  refine ⟨hvalid.1, fun other hmem hbasic => ?_⟩
  obtain hold | rfl := mem_setAuth hlistener hmem
  · exact hvalid.2 other hold hbasic
  · exact validAuth_withUsers husers

end Configuration

end MasqueServer
