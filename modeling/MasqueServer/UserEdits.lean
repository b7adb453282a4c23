import MasqueServer.ConfigDocuments
import MasqueServer.PairedLists
import MasqueServer.Transactions

/-!
# Editing the users of a Basic listener

A user is added, given another password or removed by changing the document a configuration was read
from. The document is printed and read again, and the result must be the configuration with exactly
this edit made; only then is the file replaced.
-/
namespace MasqueServer

deriving instance DecidableEq for ListenerBlock

/-- A configuration: its listeners and everything else. -/
structure FileConfig (Targets Rest : Type) where
  listeners : List (ListenerBlock Targets)
  rest : Rest
  deriving DecidableEq

namespace FileConfig

variable {Targets Rest : Type}

def setAuth (config : FileConfig Targets Rest) (index : ℕ) (auth : ConfigAuth) :
    FileConfig Targets Rest :=
  { config with listeners := config.listeners.modify index fun listener => { listener with auth } }

def withoutCredentials (config : FileConfig Targets Rest) : FileConfig Targets Rest :=
  { config with
    listeners := config.listeners.map fun listener =>
      { listener with auth := ⟨listener.auth.withoutCredentials, listener.auth.stealth⟩ } }

end FileConfig

open TomlTable in
def decodeConfig {Targets Rest : Type} (decodeTargets : TomlItem → Option Targets)
    (decodeRest : TomlTable → Option Rest) (document : TomlTable) :
    Option (FileConfig Targets Rest) := do
  let listeners ← required document "listeners" fun item =>
    item.asTables.bind (·.mapM (decodeListener decodeTargets))
  let rest ← decodeRest (remove document "listeners")
  return ⟨listeners, rest⟩

/-- What reading, checking and printing a configuration takes from its libraries. `Text` is the text
of a file. `checks` is every check of a configuration that does not look at credentials. A document
that is printed is read as what it holds, and the empty string is no password hash. -/
structure ConfigLibrary (Text Targets Rest Key Digest : Type) where
  ofString : String → Text
  parseDocument : Text → Option TomlTable
  print : TomlTable → Text
  isValue : String → Bool
  decodeTargets : TomlItem → Option Targets
  decodeRest : TomlTable → Option Rest
  checks : FileConfig Targets Rest → Bool
  basic : BasicPrimitives Key Digest
  parse_wellFormed : ∀ text document, parseDocument text = some document →
    wellFormedEntries isValue document = true
  parse_print : ∀ document, wellFormedEntries isValue document = true →
    (parseDocument (print document)).bind (decodeConfig decodeTargets decodeRest) =
      decodeConfig decodeTargets decodeRest document
  phcAlgorithm_empty : basic.phcAlgorithm "" = none

/-! ### Requests -/

structure BasicListenerSelector where
  listenAddr : Option SocketAddr
  transport : Option Transport

structure ClientEndpoint where
  host : String
  port : BitVec 16

structure DiskPath where
  dir : String
  name : String
  deriving DecidableEq

structure BasicClientOutput where
  endpoint : ClientEndpoint
  name : Option String
  out : Option DiskPath

structure BasicUserPassword where
  selector : BasicListenerSelector
  username : String
  passwordHash : Option String
  passwordStdin : Bool
  clientOutput : Option BasicClientOutput

inductive UserEdit
  | add (request : BasicUserPassword)
  | setPassword (request : BasicUserPassword)
  | remove (selector : BasicListenerSelector) (username : String)

namespace UserEdit

def selector : UserEdit → BasicListenerSelector
  | .add request => request.selector
  | .setPassword request => request.selector
  | .remove selector _ => selector

def username : UserEdit → String
  | .add request => request.username
  | .setPassword request => request.username
  | .remove _ username => username

def clientOutput : UserEdit → Option BasicClientOutput
  | .add request => request.clientOutput
  | _ => none

end UserEdit

/-- What an edit meets outside: the lock, what is typed and read, the random generator, whether
output and files are taken, and a text that another program stores in the file meanwhile. -/
structure EditWorld (Text Key : Type) where
  locked : Bool
  stdin : Option String
  terminal : Bool
  entered : Option String
  repeated : Option String
  generated : Option String
  hashPassword : String → Option String
  keys : ℕ → ℕ → Option Key
  keysAgain : ℕ → ℕ → Option Key
  printed : Bool
  created : DiskPath → Bool
  pid : ℕ
  interim : Option Text
  renamed : Bool

inductive PasswordError
  | conflict
  | plaintextUnavailable
  | stdin
  | empty
  | control
  | hash
  | prompt
  | mismatch
  | random
  deriving DecidableEq

inductive SurgeError
  | name
  | username
  | password
  deriving DecidableEq

inductive UserEditError
  | username (error : UsernameError)
  | lock
  | read
  | parse
  | invalid
  | noListener
  | ambiguousListener
  | clientOutputTransport
  | alreadyExists (username : String)
  | tooManyUsers
  | missing (username : String)
  | finalUser
  | password (error : PasswordError)
  | document
  | noAuthTable (listener : ℕ)
  | usersNotTables
  | legacyPair
  | parseEdited
  | unrelated
  | invalidEdited
  | print
  | plaintext
  | surge (error : SurgeError)
  | create (file : DiskPath)
  | reread
  | changed
  | replace
  deriving DecidableEq

/-! ### Passwords -/

structure ResolvedUserPassword where
  passwordHash : String
  plaintext : Option String
  generated : Bool

def checkPassword (password : String) : Except PasswordError Unit := do
  ensure (!password.isEmpty) .empty
  ensure (!password.toList.any isControl) .control

def stripSuffixChar (c : Char) (value : List Char) : List Char :=
  if value.getLast? = some c then value.dropLast else value

def trimNewline (value : String) : String :=
  String.ofList (stripSuffixChar '\r' (stripSuffixChar '\n' value.toList))

section Passwords

variable {Text Key : Type} (world : EditWorld Text Key)

def resolveHash (password : String) : Except PasswordError String :=
  (world.hashPassword password).elim (.error .hash) .ok

def promptPassword : Except PasswordError (Option String) := do
  let password ← world.entered.elim (.error .prompt) .ok
  if password.isEmpty then return none
  checkPassword password
  let repeated ← world.repeated.elim (.error .prompt) .ok
  ensure (repeated = password) .mismatch
  return some password

def resolveUserPassword (request : BasicUserPassword) (retainPlaintext : Bool) :
    Except PasswordError ResolvedUserPassword := do
  ensure (!(request.passwordHash.isSome && request.passwordStdin)) .conflict
  if let some hash := request.passwordHash then
    ensure (!retainPlaintext) .plaintextUnavailable
    return ⟨hash, none, false⟩
  if request.passwordStdin then
    let input ← world.stdin.elim (.error .stdin) .ok
    let password := trimNewline input
    checkPassword password
    let hash ← resolveHash world password
    return ⟨hash, if retainPlaintext then some password else none, false⟩
  let entered ← if world.terminal then promptPassword world else .ok none
  if let some password := entered then
    let hash ← resolveHash world password
    return ⟨hash, if retainPlaintext then some password else none, false⟩
  let password ← world.generated.elim (.error .random) .ok
  let hash ← resolveHash world password
  return ⟨hash, some password, true⟩

def UserEdit.resolve : UserEdit → Except PasswordError (Option ResolvedUserPassword)
  | .add request => (resolveUserPassword world request request.clientOutput.isSome).map some
  | .setPassword request => (resolveUserPassword world request false).map some
  | .remove _ _ => .ok none

end Passwords

def replacementHash (resolved : Option ResolvedUserPassword) : String :=
  resolved.elim "" (·.passwordHash)

/-! ### The edited configuration -/

section Configuration

variable {Text Targets Rest Key Digest : Type} (lib : ConfigLibrary Text Targets Rest Key Digest)

def parseToml (text : Text) : Option (FileConfig Targets Rest) :=
  (lib.parseDocument text).bind (decodeConfig lib.decodeTargets lib.decodeRest)

def validateConfig (keys : ℕ → ℕ → Option Key) (config : FileConfig Targets Rest) : Bool :=
  lib.checks config.withoutCredentials &&
    config.listeners.zipIdx.all fun entry =>
      !entry.1.auth.basicEnabled ||
        (fromSection lib.basic (keys entry.2) [] entry.1.auth.toAuthSection).isOk

def BasicListenerSelector.matches (selector : BasicListenerSelector)
    (listener : ListenerBlock Targets) : Bool :=
  listener.auth.basicEnabled && selector.listenAddr.all (listener.listenAddr = ·) &&
    selector.transport.all (listener.transport = ·)

def selectBasicListener (config : FileConfig Targets Rest) (selector : BasicListenerSelector) :
    Except UserEditError ℕ :=
  match (config.listeners.zipIdx.filter (selector.matches ·.1)).map Prod.snd with
  | [index] => .ok index
  | [] => .error .noListener
  | _ => .error .ambiguousListener

def migrateLegacyBasicUser (auth : ConfigAuth) : ConfigAuth :=
  if auth.users = [] then
    { auth with username := "", passwordHash := "", users := [⟨auth.username, auth.passwordHash⟩] }
  else auth

namespace UserEdit

def check (edit : UserEdit) (position : Option ℕ) (users : ℕ) : Except UserEditError Unit :=
  match edit with
  | .add request => do
    ensure position.isNone (.alreadyExists request.username)
    ensure (users < maxBasicUsersPerListener) .tooManyUsers
  | .setPassword request => ensure position.isSome (.missing request.username)
  | .remove _ username => do
    ensure position.isSome (.missing username)
    ensure (1 < users) .finalUser

def applyTo (edit : UserEdit) (hash : String) (position : Option ℕ) (users : List BasicUser) :
    List BasicUser :=
  match edit with
  | .add request => users ++ [⟨request.username, hash⟩]
  | .setPassword _ =>
    position.elim users fun index => users.modify index fun user =>
      { user with passwordHash := hash }
  | .remove _ _ => position.elim users users.eraseIdx

end UserEdit

end Configuration

/-! ### The edited document -/

section Document

open TomlTable

def editableAuthTable (document : TomlTable) (index : ℕ) : Option TomlTable := do
  let listeners ← (get document "listeners").bind TomlItem.asTables
  let listener ← listeners[index]?
  (get listener "auth").bind TomlItem.asTable

def setAuthTable (document : TomlTable) (index : ℕ) (auth : TomlTable) : TomlTable :=
  ((get document "listeners").bind TomlItem.asTables).elim document fun listeners =>
    set document "listeners"
      (.tables (listeners.modify index fun listener => set listener "auth" (.table auth)))

def basicUserTable (username passwordHash : String) : TomlTable :=
  set (set [] "username" (.string username)) "password_hash" (.string passwordHash)

def tableUsername (table : TomlTable) : Option String :=
  (get table "username").bind TomlItem.asString

def canonicalUsersTable (auth : TomlTable) : Except UserEditError (TomlTable × List TomlTable) := do
  let legacyUsername := (get auth "username").bind TomlItem.asString
  let legacyHash := (get auth "password_hash").bind TomlItem.asString
  let auth := if (get auth "users").isSome then auth else set auth "users" (.tables [])
  let users ← ((get auth "users").bind TomlItem.asTables).elim (.error .usersNotTables) .ok
  match legacyUsername, legacyHash with
  | some username, some hash =>
    .ok (remove (remove auth "username") "password_hash", users ++ [basicUserTable username hash])
  | none, none => .ok (auth, users)
  | _, _ => .error .legacyPair

def UserEdit.applyToTables (edit : UserEdit) (hash : String) (users : List TomlTable) :
    Except UserEditError (List TomlTable) :=
  match edit with
  | .add request => .ok (users ++ [basicUserTable request.username hash])
  | .setPassword request => do
    let position ← (users.findIdx? fun table => tableUsername table = some request.username).elim
      (.error (.missing request.username)) .ok
    return users.modify position fun table => set table "password_hash" (.string hash)
  | .remove _ username => do
    let position ← (users.findIdx? fun table => tableUsername table = some username).elim
      (.error (.missing username)) .ok
    return users.eraseIdx position

def UserEdit.applyToDocument (edit : UserEdit) (hash : String) (document : TomlTable) (index : ℕ) :
    Except UserEditError TomlTable := do
  let auth ← (editableAuthTable document index).elim (.error (.noAuthTable (index + 1))) .ok
  let (auth, users) ← canonicalUsersTable auth
  let users ← edit.applyToTables hash users
  return setAuthTable document index (set auth "users" (.tables users))

end Document

/-! ### The edited file -/

section File

variable {Text Targets Rest Key Digest : Type} (lib : ConfigLibrary Text Targets Rest Key Digest)
  (world : EditWorld Text Key)

structure PreparedEdit (Text : Type) where
  merged : Text
  resolved : Option ResolvedUserPassword

def prepareEdit [DecidableEq Targets] [DecidableEq Rest] (edit : UserEdit) (text : Text) :
    Except UserEditError (PreparedEdit Text) := do
  let config ← (parseToml lib text).elim (.error .parse) .ok
  ensure (validateConfig lib world.keys config) .invalid
  let index ← selectBasicListener config edit.selector
  let listener ← config.listeners[index]?.elim (.error .noListener) .ok
  ensure (edit.clientOutput.isNone || listener.transport = .http3) .clientOutputTransport
  let auth := migrateLegacyBasicUser listener.auth
  let position := auth.users.findIdx? (·.username = edit.username)
  edit.check position auth.users.length
  let resolved ← (edit.resolve world).mapError .password
  let hash := replacementHash resolved
  let expected := config.setAuth index { auth with users := edit.applyTo hash position auth.users }
  let document ← (lib.parseDocument text).elim (.error .document) .ok
  let document ← edit.applyToDocument hash document index
  let merged := lib.print document
  let parsed ← (parseToml lib merged).elim (.error .parseEdited) .ok
  ensure (parsed = expected) .unrelated
  ensure (validateConfig lib world.keysAgain parsed) .invalidEdited
  return ⟨merged, resolved⟩

abbrev Disk (Text : Type) := Table DiskPath Text

def surgeHost (endpoint : ClientEndpoint) : String :=
  if ':' ∈ endpoint.host.toList then "[" ++ endpoint.host ++ "]" else endpoint.host

def defaultSurgeProxyName (endpoint : ClientEndpoint) : String :=
  "[masque] " ++ surgeHost endpoint ++ ":" ++ toString endpoint.port.toNat

def surgeValue (value : String) : String :=
  if value.toList.all fun c => c.isAlphanum || c ∈ ['.', '_', '-', '~'] then value
  else
    let quoted := value.toList.flatMap fun c => if c = '"' ∨ c = '\\' then ['\\', c] else [c]
    "\"" ++ String.ofList quoted ++ "\""

def surgeProxyConfig (name : String) (endpoint : ClientEndpoint) (username password : String) :
    Except SurgeError String := do
  ensure (!(name.isEmpty || name.toList.any fun c => c = '=' || isControl c)) .name
  ensure (!(username.isEmpty || username.toList.any isControl)) .username
  ensure (!(password.isEmpty || password.toList.any isControl)) .password
  return "[Proxy]\n" ++ name ++ " = masque, " ++ surgeHost endpoint ++ ", " ++
    toString endpoint.port.toNat ++ ", username=" ++ surgeValue username ++ ", password=" ++
    surgeValue password ++ "\n"

open Transaction

def createNew (file : DiskPath) (contents : Text) : Transaction (Disk Text) UserEditError Unit := do
  let disk ← get
  require (ensure (!disk.contains file && world.created file) (.create file))
  write fun disk => ((), disk.put file contents)

def printGeneratedPassword (resolved : Option ResolvedUserPassword) : Except UserEditError Unit :=
  ensure (!(resolved.any fun resolved => resolved.generated && resolved.plaintext.isSome) ||
    world.printed) .print

def deliverBasicClientConfig (output : BasicClientOutput) (username password : String) :
    Transaction (Disk Text) UserEditError Unit := do
  let name := output.name.getD (defaultSurgeProxyName output.endpoint)
  let contents ← require ((surgeProxyConfig name output.endpoint username password).mapError .surge)
  match output.out with
  | some file => createNew world file (lib.ofString contents)
  | none => require (ensure world.printed .print)

def UserEdit.deliver (edit : UserEdit) (resolved : Option ResolvedUserPassword) :
    Transaction (Disk Text) UserEditError Unit := do
  require (printGeneratedPassword world resolved)
  match edit.clientOutput with
  | none => pure ()
  | some output =>
    let password ← require ((resolved.bind (·.plaintext)).elim (.error .plaintext) .ok)
    deliverBasicClientConfig lib world output edit.username password

def tempPath (pid : ℕ) (path : DiskPath) : DiskPath :=
  { path with name := "." ++ path.name ++ ".new." ++ toString pid }

/-- Replace a file that still holds the expected text. The new text is written next to it first, and
another program may store something meanwhile. -/
def writeInPlace [DecidableEq Text] (path : DiskPath) (expected contents : Text) :
    Transaction (Disk Text) UserEditError Unit :=
  let temp := tempPath world.pid path
  cleaningUp (do
    createNew world temp contents
    write fun disk => ((), world.interim.elim disk (disk.put path))
    let disk ← get
    let current ← require ((disk.get path).elim (.error .reread) .ok)
    require (ensure (current = expected) .changed)
    require (ensure world.renamed .replace)
    write fun disk => ((), (disk.remove temp).put path contents)) (·.remove temp)

def editBasicUser [DecidableEq Text] [DecidableEq Targets] [DecidableEq Rest] (path : DiskPath)
    (edit : UserEdit) : Transaction (Disk Text) UserEditError Unit := do
  require ((checkUsername edit.username).mapError .username)
  require (ensure world.locked .lock)
  let disk ← get
  let text ← require ((disk.get path).elim (.error .read) .ok)
  let prepared ← require (prepareEdit lib world edit text)
  edit.deliver lib world prepared.resolved
  writeInPlace world path text prepared.merged

end File

end MasqueServer
