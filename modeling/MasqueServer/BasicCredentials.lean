import MasqueServer.FallibleLists
import MasqueServer.FiniteTable
import Mathlib.Data.List.DropRight
import Mathlib.Logic.Function.Defs
import MasqueServer.Octets

/-!
# Basic credentials of a listener

A listener's credential set is built from its `auth` section as a whole: one bad user refuses it.
Credentials are allocated in one growing list and referred to by their position, so a request can
keep the credential it selected while the set is replaced.
-/
namespace MasqueServer

/-- What the credential code takes from its libraries: base64, HMAC under a cache key, the
algorithm of a well-formed PHC string, and the Argon2 check of a password against one. Digests
of different passwords under one key are assumed to differ. -/
structure BasicPrimitives (Key Digest : Type) where
  decodeBase64 : Bytes → Option Bytes
  hmac : Key → Bytes → Digest
  phcAlgorithm : String → Option String
  verifyPassword : String → Bytes → Bool
  hmac_injective : ∀ key, Function.Injective (hmac key)

/-- What never changes of a credential. -/
structure BasicCredential (Key : Type) where
  passwordHash : String
  cacheKey : Key

/-- The position of the credential of each username. -/
abbrev BasicAuthenticator := Table Bytes ℕ

structure BasicUser where
  username : String
  passwordHash : String

/-- The legacy pair, or the list of users. -/
structure AuthSection where
  username : String
  passwordHash : String
  users : List BasicUser

inductive UsernameError
  | empty
  | forbidden
  deriving DecidableEq

inductive BasicError
  | combined
  | tooManyUsers
  | invalidUser (username : String) (error : UsernameError)
  | invalidHash (username : String)
  | notArgon2id (username : String)
  | noCacheKey
  | duplicate (username : String)
  | noUsers
  deriving DecidableEq

def maxBasicUsersPerListener : ℕ := 4096

def maxAuthorizationLen : ℕ := 8 * 1024

def isControl (c : Char) : Bool := c.toNat ≤ 0x1f || (0x7f ≤ c.toNat && c.toNat ≤ 0x9f)

def checkUsername (username : String) : Except UsernameError Unit :=
  if username.isEmpty then .error .empty
  else if username.toList.any fun c => c = ':' || isControl c then .error .forbidden
  else .ok ()

section Build

variable {Key Digest : Type} (p : BasicPrimitives Key Digest)

/-- The users from position `index` on, added to the set and to the allocated credentials.
`keys` is what the random generator gives, if it does. -/
def addEntries (keys : ℕ → Option Key) (index : ℕ) (users : BasicAuthenticator)
    (credentials : List (BasicCredential Key)) :
    List BasicUser → Except BasicError (BasicAuthenticator × List (BasicCredential Key))
  | [] => .ok (users, credentials)
  | user :: rest => do
    if maxBasicUsersPerListener ≤ index then throw .tooManyUsers
    (checkUsername user.username).mapError (.invalidUser user.username)
    let algorithm ← (p.phcAlgorithm user.passwordHash).elim
      (.error (.invalidHash user.username)) .ok
    if algorithm ≠ "argon2id" then throw (.notArgon2id user.username)
    let cacheKey ← (keys index).elim (.error .noCacheKey) .ok
    if users.contains (asBytes user.username) then throw (.duplicate user.username)
    addEntries keys (index + 1) (users.put (asBytes user.username) credentials.length)
      (credentials ++ [⟨user.passwordHash, cacheKey⟩]) rest

def fromEntries (keys : ℕ → Option Key) (credentials : List (BasicCredential Key))
    (entries : List BasicUser) :
    Except BasicError (BasicAuthenticator × List (BasicCredential Key)) := do
  let (users, credentials) ← addEntries p keys 0 ∅ credentials entries
  if users.size = 0 then throw .noUsers
  return (users, credentials)

def fromSection (keys : ℕ → Option Key) (credentials : List (BasicCredential Key))
    (auth : AuthSection) : Except BasicError (BasicAuthenticator × List (BasicCredential Key)) :=
  if auth.users ≠ [] then
    if auth.username ≠ "" ∨ auth.passwordHash ≠ "" then .error .combined
    else fromEntries p keys credentials auth.users
  else fromEntries p keys credentials [⟨auth.username, auth.passwordHash⟩]

variable {p} {keys : ℕ → Option Key} {credentials credentials' : List (BasicCredential Key)}
  {users' : BasicAuthenticator}

lemma addEntries_keeps {index : ℕ} {users : BasicAuthenticator} {entries : List BasicUser}
    (h : addEntries p keys index users credentials entries = .ok (users', credentials')) :
    credentials <+: credentials' := by
  induction entries generalizing index users credentials with
  | nil =>
    cases h
    exact List.prefix_rfl
  | cons user rest ih =>
    rw [addEntries] at h
    split at h
    · cases h
    · simp only [bind_ok_iff] at h
      obtain ⟨_, -, _, -, h⟩ := h
      split at h
      · cases h
      · simp only [bind_ok_iff] at h
        obtain ⟨_, -, h⟩ := h
        split at h
        · cases h
        · exact (List.prefix_append _ _).trans (ih h)

theorem fromSection_keeps {auth : AuthSection}
    (h : fromSection p keys credentials auth = .ok (users', credentials')) :
    credentials <+: credentials' := by
  have hentries : ∀ entries, fromEntries p keys credentials entries = .ok (users', credentials') →
      credentials <+: credentials' := by
    intro entries hfrom
    rw [fromEntries, bind_ok_iff] at hfrom
    obtain ⟨⟨users, allocated⟩, hadd, hfrom⟩ := hfrom
    simp only at hfrom
    split at hfrom
    · cases hfrom
    · cases hfrom
      exact addEntries_keeps hadd
  unfold fromSection at h
  split_ifs at h
  · exact hentries _ h
  · exact hentries _ h

end Build

/-! ### The header of a request -/

def isAsciiWhitespace (b : UInt8) : Bool := b = 32 || b = 9 || b = 10 || b = 12 || b = 13

def toAsciiLowercase (b : UInt8) : UInt8 := if 65 ≤ b ∧ b ≤ 90 then b + 32 else b

def trimAsciiWhitespace (value : Bytes) : Bytes :=
  (value.dropWhile isAsciiWhitespace).rdropWhile isAsciiWhitespace

def parseBasic (decodeBase64 : Bytes → Option Bytes) (value : Bytes) :
    Option (Bytes × Bytes) := do
  guard (value.length ≤ maxAuthorizationLen)
  let separator ← value.findIdx? isAsciiWhitespace
  guard ((value.take separator).map toAsciiLowercase = [98, 97, 115, 105, 99])
  let credentials := trimAsciiWhitespace (value.drop separator)
  guard (credentials ≠ [] ∧ credentials.any isAsciiWhitespace = false)
  let decoded ← decodeBase64 credentials
  let colon ← decoded.findIdx? (· = 58)
  return (decoded.take colon, decoded.drop (colon + 1))

/-- The slow check of a password; a hash that does not parse accepts none. -/
def BasicPrimitives.verify {Key Digest : Type} (p : BasicPrimitives Key Digest)
    (credential : BasicCredential Key) (password : Bytes) : Bool :=
  (p.phcAlgorithm credential.passwordHash).isSome &&
    p.verifyPassword credential.passwordHash password

end MasqueServer
