import MasqueServer.TargetUris

/-!
# CONNECT-IP templates

The configured template of CONNECT-IP requests has whole-segment variables in its path, literal or
variable query values, and at its end perhaps an expansion of query variables. Parsing it leaves
its components; a request URI is then matched component by component, and what stands in the place
of a variable becomes the scope of the tunnel.
-/
namespace MasqueServer.ConnectIp

open Ascii

structure IpTarget where
  target : Option Bytes
  ipproto : Option ℕ
deriving DecidableEq

def IpTarget.unscoped : IpTarget := ⟨none, none⟩

inductive Variable
  | target
  | protocol
deriving DecidableEq

def Variable.parse (text : Bytes) : Except UriError Variable :=
  if text = asBytes "target" then .ok .target
  else if text = asBytes "ipproto" then .ok .protocol
  else .error .invalidTemplate

def Variable.name : Variable → Bytes
  | .target => asBytes "target"
  | .protocol => asBytes "ipproto"

def decode (text : Bytes) : Option Bytes :=
  match unescape text with
  | some decoded => if isUtf8 decoded then some decoded else none
  | none => none

def parseProtocol (value : Bytes) : Except UriError (Option ℕ) :=
  match decode value with
  | none => .error (.invalidProtocol value)
  | some decoded =>
    if decoded = [star] then .ok none
    else if decoded.isEmpty || 3 < decoded.length || !decoded.all (fun octet => IsDigit octet) then
      .error (.invalidProtocol value)
    else
      match parseUnsigned 255 decoded with
      | some protocol => .ok (some protocol)
      | none => .error (.invalidProtocol value)

def isCanonicalPrefix (digits : ℕ) {width : ℕ} (address : BitVec width) (length : Bytes) :
    Bool :=
  if length.isEmpty || digits < length.length || !length.all (fun octet => IsDigit octet) then false
  else
    match parseUnsigned 255 length with
    | none => false
    | some value =>
      if h : value ≤ width then (Cidr.mk address value h).network == address else false

def isRegName (octet : UInt8) : Bool :=
  isAlphanumeric octet || (asBytes "-._~!$&'()*+,;=").contains octet

/-- What a target other than the wildcard has to be once it is decoded: an address prefix, an
IPv6 address, or a registered name or IPv4 address. -/
def isTarget (decoded : Bytes) : Bool :=
  if decoded.isEmpty then false
  else
    match splitOnce slash decoded with
    | some (address, length) =>
      match parseIpAddr address with
      | some (.v4 address) => isCanonicalPrefix 2 address length
      | some (.v6 address) => isCanonicalPrefix 3 address length
      | none => false
    | none =>
      if decoded.contains colon then (parseIpv6Addr decoded).isSome else decoded.all isRegName

def parseTarget (value : Bytes) : Except UriError (Option Bytes) :=
  if value.contains colon || value.contains slash then .error .invalidTarget
  else
    match decode value with
    | none => .error .invalidTarget
    | some decoded =>
      if decoded = [star] then .ok none
      else if isTarget decoded then .ok (some decoded)
      else .error .invalidTarget

inductive Component
  | literal (text : Bytes)
  | var (name : Variable)
deriving DecidableEq

namespace Component

def bracedName (value : Bytes) : Option Bytes :=
  (value.dropPrefix? [openBrace]).bind fun rest => rest.dropSuffix? [closeBrace]

def parse (value : Bytes) (used : List Variable) :
    Except UriError (Component × List Variable) :=
  match bracedName value with
  | some name => do
    let found ← Variable.parse name
    if found ∈ used then .error .invalidTemplate
    else .ok (.var found, found :: used)
  | none =>
    if value.contains openBrace || value.contains closeBrace || (decode value).isNone then
      .error .invalidTemplate
    else .ok (.literal value, used)

def capture (component : Component) (value : Bytes) (target : IpTarget) :
    Except UriError IpTarget :=
  match component with
  | .literal expected => if expected = value then .ok target else .error .pathMismatch
  | .var .target => do
    let scope ← parseTarget value
    .ok { target with target := scope }
  | .var .protocol => do
    let scope ← parseProtocol value
    .ok { target with ipproto := scope }

end Component

structure QueryParameter where
  name : Bytes
  value : Component
  optional : Bool
deriving DecidableEq

structure Template where
  path : List Component
  query : List QueryParameter
deriving DecidableEq

namespace Template

def isVisible (text : Bytes) : Bool :=
  !text.contains hash && text.all fun octet => 0x21 ≤ octet && octet ≤ 0x7E

/-- The part before a final query expansion and the text of the expansion. A form-style expansion
starts the query; a continuation needs one that has been started. -/
def splitExpansion (template : Bytes) :
    Except UriError (Bytes × Option Bytes) :=
  let found :=
    match splitOncePair openBrace question template with
    | some parts => some (parts, false)
    | none => (splitOncePair openBrace ampersand template).map fun parts => (parts, true)
  match found with
  | none => .ok (template, none)
  | some ((fixed, after), continued) =>
    match after.dropSuffix? [closeBrace] with
    | none => .error .invalidTemplate
    | some expression =>
      if continued ≠ fixed.contains question then .error .invalidTemplate
      else .ok (fixed, some expression)

def parsePath : List Bytes → List Variable →
    Except UriError (List Component × List Variable)
  | [], used => .ok ([], used)
  | part :: parts, used => do
    let (component, used) ← Component.parse part used
    let (components, used) ← parsePath parts used
    .ok (component :: components, used)

def parsePair (pair : Bytes) (used : List Variable) (names : List Bytes) :
    Except UriError (QueryParameter × List Variable × List Bytes) :=
  match splitOnce equals pair with
  | none => .error .invalidTemplate
  | some (name, value) =>
    if name.isEmpty || name.contains openBrace || name.contains closeBrace || (decode name).isNone
        || names.contains name then .error .invalidTemplate
    else do
      let (component, used) ← Component.parse value used
      .ok (⟨name, component, false⟩, used, name :: names)

def parseFixed : List Bytes → List Variable → List Bytes →
    Except UriError (List QueryParameter × List Variable × List Bytes)
  | [], used, names => .ok ([], used, names)
  | pair :: pairs, used, names => do
    let (parameter, used, names) ← parsePair pair used names
    let (parameters, used, names) ← parseFixed pairs used names
    .ok (parameter :: parameters, used, names)

def parseExpansion : List Bytes → List Variable → List Bytes →
    Except UriError (List QueryParameter)
  | [], _, _ => .ok []
  | name :: rest, used, names => do
    let found ← Variable.parse name
    if found ∈ used ∨ name ∈ names then .error .invalidTemplate
    else do
      let parameters ← parseExpansion rest (found :: used) (name :: names)
      .ok (⟨name, .var found, true⟩ :: parameters)

def splitFixed (fixed : Bytes) : Bytes × Option Bytes :=
  match splitOnce question fixed with
  | some (path, query) => (path, some query)
  | none => (fixed, none)

def parseFixedQuery (query : Option Bytes) (used : List Variable) :
    Except UriError (List QueryParameter × List Variable × List Bytes) :=
  match query with
  | some query => parseFixed (query.splitOn ampersand) used []
  | none => .ok ([], used, [])

def parseFinalExpansion (expansion : Option Bytes) (used : List Variable)
    (names : List Bytes) : Except UriError (List QueryParameter) :=
  match expansion with
  | some expression => parseExpansion (expression.splitOn comma) used names
  | none => .ok []

def parse (template : Bytes) : Except UriError Template :=
  if template.head? ≠ some slash || [slash, slash].isPrefixOf template || !isVisible template then
    .error .invalidTemplate
  else do
    let (fixed, expansion) ← splitExpansion template
    let (path, fixedQuery) := splitFixed fixed
    let (components, used) ← parsePath (path.splitOn slash) []
    let (required, used, names) ← parseFixedQuery fixedQuery used
    let optional ← parseFinalExpansion expansion used names
    .ok ⟨components, required ++ optional⟩

def capturePath : List Component → List Bytes → IpTarget → Except UriError IpTarget
  | [], [], target => .ok target
  | [], _ :: _, _ => .error .pathMismatch
  | _ :: _, [], _ => .error .pathMismatch
  | component :: components, segment :: segments, target => do
    let target ← component.capture segment target
    capturePath components segments target

def capturePair (query : List QueryParameter) (pair : Bytes) (target : IpTarget)
    (seen : List Bytes) : Except UriError (IpTarget × List Bytes) :=
  match splitOnce equals pair with
  | none => .error .pathMismatch
  | some (name, value) =>
    match query.find? fun parameter => parameter.name = name with
    | none => .error .pathMismatch
    | some parameter =>
      if seen.contains name then .error .pathMismatch
      else do
        let target ← parameter.value.capture value target
        .ok (target, name :: seen)

def captureQuery (query : List QueryParameter) : List Bytes → IpTarget →
    List Bytes → Except UriError (IpTarget × List Bytes)
  | [], target, seen => .ok (target, seen)
  | pair :: pairs, target, seen => do
    let (target, seen) ← capturePair query pair target seen
    captureQuery query pairs target seen

def capture (template : Template) (uri : Bytes) : Except UriError IpTarget :=
  if !isVisible uri then .error .pathMismatch
  else do
    let (path, query) := splitFixed uri
    let target ← capturePath template.path (path.splitOn slash) .unscoped
    let (target, seen) ←
      match query with
      | some query => captureQuery template.query (query.splitOn ampersand) target []
      | none => .ok (target, [])
    if template.query.any fun parameter => !parameter.optional && !seen.contains parameter.name then
      .error .pathMismatch
    else .ok target

end Template

def validateIpTemplate (template : Bytes) : Except UriError Unit :=
  (Template.parse template).map fun _ => ()

def parseIpPath (path template : Bytes) : Except UriError IpTarget := do
  let template ← Template.parse template
  template.capture path

end MasqueServer.ConnectIp
