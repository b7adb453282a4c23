import MasqueServer.ConfigDocuments

/-!
# Generated configuration text

The commands that enroll a client or add a listener write TOML and JSON with their own escape
loops. Whatever the texts put in, each quoted text is one literal with that value, and each block
reads back as one entry with the given values.
-/
namespace MasqueServer

open List

/-! ### Quoted texts -/

variable (letterCase : Char → Char)

def paddedHex (n : ℕ) : List Char :=
  ((Nat.toDigits 16 n).map letterCase).leftpad 4 '0'

def escapeChar (c : Char) : List Char :=
  match c with
  | '"' => "\\\"".toList
  | '\\' => "\\\\".toList
  | '\n' => "\\n".toList
  | '\r' => "\\r".toList
  | '\t' => "\\t".toList
  | c => if isControl c then "\\u".toList ++ paddedHex letterCase c.toNat else [c]

def quoteString (value : String) : List Char :=
  '"' :: (value.toList.flatMap (escapeChar letterCase) ++ ['"'])

def tomlString : String → List Char := quoteString Char.toUpper

def jsonString : String → List Char := quoteString id

/-- The four digits of a control character are read back and are no signs of the grammar. -/
def WritesHex : Prop :=
  ∀ n < 0xa0, (paddedHex letterCase n).length = 4 ∧ hexFrom 0 (paddedHex letterCase n) = some n ∧
    ∀ c ∈ paddedHex letterCase n, isControl c = false ∧ c ≠ '"' ∧ c ≠ '\\'

-- Decided over lists, as characters are also a finite type.
lemma writesHex_of_all {letterCase : Char → Char}
    (h : ((List.range 0xa0).all fun n => decide ((paddedHex letterCase n).length = 4) &&
      (decide (hexFrom 0 (paddedHex letterCase n) = some n) &&
        (paddedHex letterCase n).all fun c => !isControl c && (c != '"' && c != '\\'))) = true) :
    WritesHex letterCase := by
  intro n hn
  have hn := List.all_eq_true.mp h n (mem_range.mpr hn)
  simpa only [Bool.and_eq_true, decide_eq_true_eq, List.all_eq_true, Bool.not_eq_true', bne_iff_ne]
    using hn

lemma writesHex_toUpper : WritesHex Char.toUpper := writesHex_of_all (by decide +kernel)

lemma writesHex_id : WritesHex id := writesHex_of_all (by decide +kernel)

/-- What an escape loop writes for a character. -/
inductive Escape (letterCase : Char → Char) (c : Char) : List Char → Prop
  | plain (hcontrol : isControl c = false) (hquote : c ≠ '"') (hslash : c ≠ '\\') :
    Escape letterCase c [c]
  | short (letter : Char)
    (h : (letter, c) ∈ [('"', '"'), ('\\', '\\'), ('n', '\n'), ('r', '\r'), ('t', '\t')]) :
    Escape letterCase c ['\\', letter]
  | hex (hcontrol : isControl c = true) :
    Escape letterCase c ('\\' :: 'u' :: paddedHex letterCase c.toNat)

lemma escape_escapeChar (letterCase : Char → Char) (c : Char) :
    Escape letterCase c (escapeChar letterCase c) := by
  unfold escapeChar
  split
  · exact .short '"' (by decide)
  · exact .short '\\' (by decide)
  · exact .short 'n' (by decide)
  · exact .short 'r' (by decide)
  · exact .short 't' (by decide)
  next hquote hslash _ _ _ =>
    split_ifs with hcontrol
    · exact .hex hcontrol
    · exact .plain (by simpa using hcontrol) hquote hslash

section Quoted

variable {letterCase : Char → Char} {c : Char} {text : List Char}

lemma toNat_lt_of_isControl (h : isControl c = true) : c.toNat < 0xa0 := by
  simp only [isControl, Bool.or_eq_true, Bool.and_eq_true, decide_eq_true_eq] at h
  omega

lemma Escape.not_control (hcase : WritesHex letterCase) (h : Escape letterCase c text) :
    ∀ d ∈ text, isControl d = false := by
  cases h with
  | plain hcontrol => simpa using hcontrol
  | short letter h =>
    simp only [mem_cons, Prod.mk.injEq, not_mem_nil, or_false] at h
    simp only [forall_mem_cons]
    obtain ⟨rfl, -⟩ | ⟨rfl, -⟩ | ⟨rfl, -⟩ | ⟨rfl, -⟩ | ⟨rfl, -⟩ := h <;>
      exact ⟨by decide, by decide, forall_mem_nil _⟩
  | hex hcontrol =>
    obtain ⟨-, -, hdigits⟩ := hcase _ (toNat_lt_of_isControl hcontrol)
    simp only [forall_mem_cons]
    exact ⟨by decide, by decide, fun d hd => (hdigits d hd).1⟩

lemma Escape.quotesEscaped_append (hcase : WritesHex letterCase) (h : Escape letterCase c text)
    (rest : List Char) :
    LiteralGrammar.quotesEscaped false (text ++ rest) =
      LiteralGrammar.quotesEscaped false rest := by
  cases h with
  | plain _ hquote hslash =>
    exact LiteralGrammar.quotesEscaped_plain (by simpa using ⟨hquote, hslash⟩) rest
  | short letter h => rfl
  | hex hcontrol =>
    obtain ⟨-, -, hdigits⟩ := hcase _ (toNat_lt_of_isControl hcontrol)
    exact LiteralGrammar.quotesEscaped_plain (fun d hd => (hdigits d hd).2) rest

/-- What a grammar has to allow. -/
structure Allows (g : LiteralGrammar) : Prop where
  plain : ∀ c, isControl c = false → c ≠ '"' → c ≠ '\\' → g.plain c = true
  short : ∀ entry ∈ [('"', '"'), ('\\', '\\'), ('n', '\n'), ('r', '\r'), ('t', '\t')],
    g.short entry.1 = some entry.2
  hex : g.short 'u' = none ∧ g.digits 'u' = some 4

lemma allows_toml : Allows tomlLiterals := by
  refine ⟨fun c hcontrol hquote hslash => ?_, by decide, by decide⟩
  simp only [isControl, Bool.or_eq_false_iff, decide_eq_false_iff_not,
    Bool.and_eq_false_iff] at hcontrol
  simp only [tomlLiterals, Bool.or_eq_true, Bool.and_eq_true, decide_eq_true_eq]
  refine Or.inr ⟨⟨⟨by omega, by simpa using hquote⟩, by simpa using hslash⟩, ?_⟩
  simp
  omega

lemma allows_json : Allows jsonLiterals := by
  refine ⟨fun c hcontrol hquote hslash => ?_, by decide, by decide⟩
  simp only [isControl, Bool.or_eq_false_iff, decide_eq_false_iff_not] at hcontrol
  simp only [jsonLiterals, Bool.and_eq_true, decide_eq_true_eq]
  exact ⟨⟨by omega, by simpa using hquote⟩, by simpa using hslash⟩

lemma Escape.spells {g : LiteralGrammar} (hg : Allows g) (hcase : WritesHex letterCase)
    (h : Escape letterCase c text) : g.Spells text c := by
  cases h with
  | plain hcontrol hquote hslash =>
    exact LiteralGrammar.spells_plain (hg.plain c hcontrol hquote hslash) hquote hslash
  | short letter h => exact LiteralGrammar.spells_short (hg.short _ h)
  | hex hcontrol =>
    have hlt := toNat_lt_of_isControl hcontrol
    obtain ⟨hlength, hvalue, -⟩ := hcase _ hlt
    exact LiteralGrammar.spells_hex hg.hex.1 hg.hex.2 hlength hvalue (fun _ => by omega)

/-- A quoted text is one literal with its value, free of control characters and of quotes but those
of escapes. -/
theorem quoteString_isLiteral {g : LiteralGrammar} (hg : Allows g) (hcase : WritesHex letterCase)
    (value : String) :
    g.IsLiteral (quoteString letterCase value) value.toList ∧
      (∀ c ∈ quoteString letterCase value, isControl c = false) ∧
      ∃ body, quoteString letterCase value = '"' :: (body ++ ['"']) ∧
        LiteralGrammar.quotesEscaped false body = true := by
  refine ⟨?_, ?_, value.toList.flatMap (escapeChar letterCase), rfl, ?_⟩
  · exact LiteralGrammar.read_quoted (fun c _ => (escape_escapeChar letterCase c).spells hg hcase)
      []
  · intro c hc
    simp only [quoteString, List.mem_cons, List.mem_append, List.mem_flatMap, List.not_mem_nil,
      or_false] at hc
    obtain rfl | ⟨d, -, hd⟩ | rfl := hc
    · decide
    · exact (escape_escapeChar letterCase d).not_control hcase c hd
    · decide
  · induction value.toList with
    | nil => rfl
    | cons c text ih =>
      rw [List.flatMap_cons, (escape_escapeChar letterCase c).quotesEscaped_append hcase, ih]

end Quoted

/-! ### Blocks -/

def keyLine (key : String) (value : List Char) :
    List Char := key.toList ++ ' ' :: '=' :: ' ' :: value

def effectiveBasicUsers (auth : ConfigAuth) : List BasicUser :=
  if auth.users.isEmpty then [⟨auth.username, auth.passwordHash⟩] else auth.users

def userLines (user : BasicUser) : List (List Char) :=
  [[], "[[listeners.auth.users]]".toList, keyLine "username" (tomlString user.username),
    keyLine "password_hash" (tomlString user.passwordHash)]

def authLines (auth : ConfigAuth) : List (List Char) :=
  if !auth.enabled then
    ["# Anyone who can reach this socket can use the proxy.".toList, "enabled = false".toList]
  else "enabled = true".toList ::
    match auth.mode with
    | .basic => "mode = \"basic\"".toList :: (effectiveBasicUsers auth).flatMap userLines
    | .clientCert => ["mode = \"client_cert\"".toList]

/-- The block is pushed in whole lines; a line feed in front of a header makes a blank line. -/
def listenerTomlBlock {Targets : Type} (listener : ListenerBlock Targets) : List Char :=
  writeLines <|
    ["# Added by `masque-server add-listener`.".toList, "[[listeners]]".toList,
      keyLine "listen_addr" (tomlString (String.ofList listener.listenAddr.display)),
      keyLine "transport" (tomlString listener.transport.asStr),
      keyLine "shards" (Nat.toDigits 10 listener.shards.toNat)] ++
    (listener.maxDatagramSize.toList.map fun size =>
      keyLine "max_datagram_size" (Nat.toDigits 10 size.toNat)) ++
    [[], "[listeners.auth]".toList] ++ authLines listener.auth

def quotedAddress (address : List Char) : List Char := '"' :: (address ++ ['"'])

def clientsTomlBlock (name publicKeyB64 : String) (ipv4 : Option Ipv4Addr)
    (ipv6 : Option Ipv6Addr) :
    List Char :=
  writeLines <|
    ["[[clients]]".toList, keyLine "name" (tomlString name),
      keyLine "public_key" (tomlString publicKeyB64)] ++
    (ipv4.toList.map fun ipv4 => keyLine "ipv4" (quotedAddress (displayIpv4 ipv4))) ++
    ipv6.toList.map fun ipv6 => keyLine "ipv6" (quotedAddress (displayIpv6 ipv6))

section Blocks

variable {key : String} {text : List Char} {item : TomlItem}

lemma writes_keyLine (hkey : key.toList ≠ []) (hbare : key.toList.all isBareKeyChar = true)
    (hcontrol : ∀ c ∈ text, isControl c = false) (hblank : text.dropWhile isTomlBlank = text)
    (hvalue : readTomlValue text = some (item, [])) :
      Writes (keyLine key text) (.pair key item) := by
  have hfree : ∀ {d : Char}, isControl d = true → isBareKeyChar d = false →
    d ∉ keyLine key text := by
    intro d hd hbareKey hmem
    simp only [keyLine, mem_append, mem_cons] at hmem
    obtain hmem | rfl | rfl | rfl | hmem := hmem
    · rw [List.all_eq_true.mp hbare d hmem] at hbareKey
      cases hbareKey
    · cases hd
    · cases hd
    · cases hd
    · rw [hcontrol d hmem] at hd
      cases hd
  exact ⟨hfree (by decide) (by decide), hfree (by decide) (by decide),
    readTomlLine_pair hkey hbare hblank hvalue⟩

lemma writes_string (hkey : key.toList ≠ []) (hbare : key.toList.all isBareKeyChar = true)
    (value : String) : Writes (keyLine key (tomlString value)) (.pair key (.string value)) := by
  obtain ⟨hliteral, hcontrol, -⟩ := quoteString_isLiteral allows_toml writesHex_toUpper value
  refine writes_keyLine hkey hbare hcontrol rfl ?_
  rw [tomlString, readTomlValue_literal hliteral, String.ofList_toList]

lemma not_control_of_isDigit {c : Char} (h : c.isDigit = true) : isControl c = false := by
  simp only [Char.isDigit, Bool.and_eq_true, decide_eq_true_eq, UInt32.le_iff_toNat_le,
    ge_iff_le] at h
  have hvalue : c.toNat = c.val.toNat := rfl
  have hzero : '0'.val.toNat = 48 := rfl
  have hnine : '9'.val.toNat = 57 := rfl
  simp only [isControl, Bool.or_eq_false_iff, Bool.and_eq_false_iff, decide_eq_false_iff_not]
  omega

lemma writes_number (hkey : key.toList ≠ []) (hbare : key.toList.all isBareKeyChar = true) (n : ℕ) :
    Writes (keyLine key (Nat.toDigits 10 n)) (.pair key (.integer n)) := by
  have hdigit : ∀ c ∈ Nat.toDigits 10 n, c.isDigit = true := fun c hc =>
    Nat.isDigit_of_mem_toDigits (by decide) (by decide) hc
  refine writes_keyLine hkey hbare (fun c hc => not_control_of_isDigit (hdigit c hc)) ?_
    (readTomlValue_numeral n)
  obtain ⟨first, rest, hfirst⟩ := exists_cons_of_ne_nil (@Nat.toDigits_ne_nil n 10)
  have hhead : first.isDigit = true := hdigit first (hfirst ▸ mem_cons_self)
  rw [hfirst]
  refine dropWhile_cons_of_neg fun hblank => ?_
  simp only [isTomlBlank, Bool.or_eq_true, decide_eq_true_eq] at hblank
  obtain rfl | rfl := hblank <;> cases hhead

lemma plain_of_isAddressChar {c : Char} (h : IsAddressChar c) :
    tomlLiterals.plain c = true ∧ c ≠ '"' ∧ c ≠ '\\' ∧ isControl c = false := by
  obtain ⟨d, hd, rfl⟩ | rfl | rfl := h
  · interval_cases d <;> decide
  · decide
  · decide

lemma writes_address (hkey : key.toList ≠ []) (hbare : key.toList.all isBareKeyChar = true)
    {address : List Char} (haddress : ∀ c ∈ address, IsAddressChar c) :
    Writes (keyLine key (quotedAddress address)) (.pair key (.string (String.ofList address))) := by
  refine writes_keyLine hkey hbare ?_ rfl
    (readTomlValue_literal (LiteralGrammar.isLiteral_plain ?_))
  · intro c hc
    simp only [quotedAddress, List.mem_cons, List.mem_append, List.not_mem_nil, or_false] at hc
    obtain rfl | hc | rfl := hc
    · decide
    · exact (plain_of_isAddressChar (haddress c hc)).2.2.2
    · decide
  · intro c hc
    obtain ⟨hplain, hquote, hslash, -⟩ := plain_of_isAddressChar (haddress c hc)
    exact ⟨hplain, hquote, hslash⟩

end Blocks

/-! ### Listeners that are added -/

/-- The three kinds of authentication of a new listener: none, certificates, and one Basic user. -/
inductive AddedAuth : ConfigAuth → Prop
  | disabled (mode : AuthMode) : AddedAuth ⟨⟨⟨"", "", []⟩, false, mode⟩, false⟩
  | clientCert : AddedAuth ⟨⟨⟨"", "", []⟩, true, .clientCert⟩, false⟩
  | basic (user : BasicUser) : AddedAuth ⟨⟨⟨"", "", [user]⟩, true, .basic⟩, false⟩

/-- A new listener: its address was read from a text, and nothing restricts its targets. -/
structure ListenerBlock.Added {Targets : Type} (listener : ListenerBlock Targets) : Prop where
  listenAddr : ∃ text, parseSocketAddr text = some listener.listenAddr
  tcpTargets : listener.tcpTargets = none
  udpTargets : listener.udpTargets = none
  auth : AddedAuth listener.auth

/-- What is asked for on the command line; `clientOutput` says whether a client configuration is. -/
structure AddListener where
  listenAddr : Option (List Char)
  transport : Option Transport
  mode : Option AuthMode
  shards : Option (BitVec 64)
  maxDatagramSize : Option (BitVec 64)
  username : Option String
  passwordHash : Option String
  passwordStdin : Bool
  clientOutput : Bool
  disableAuth : Bool
  stealth : Bool

/-- What is entered at the prompts of a terminal, each of which may fail. -/
structure PromptAnswers where
  transport : Option Transport
  listenAddr : Option (List Char)
  mode : Option AuthMode
  shards : Option (BitVec 64)
  username : Option String

inductive AddListenerError
  | prompt
  | address
  | listenAddrRequired
  | modeRequired
  | credentials
  | clientOutputAuth
  | clientOutputTransport
  | stealth
  | http2Shards (shards : BitVec 64)
  | http2DatagramSize
  | username (error : UsernameError)
  | usernameRequired
  | password

namespace AddListener

variable (request : AddListener) (interactive : Option PromptAnswers)

def choose {α : Type} (flag : Option α) (answer : PromptAnswers → Option α)
    (fallback : Except AddListenerError α) : Except AddListenerError α :=
  match flag, interactive with
  | some value, _ => .ok value
  | none, some answers => (answer answers).elim (.error .prompt) .ok
  | none, none => fallback

def chooseMode : Except AddListenerError AuthMode :=
  if request.mode.isNone ∧ request.disableAuth then .ok .basic
  else choose interactive request.mode (·.mode) (.error .modeRequired)

def checkFlags (transport : Transport) (mode : AuthMode) : Except AddListenerError Unit := do
  if mode = .clientCert ∧ (request.username.isSome ∨ request.passwordHash.isSome ∨
    request.passwordStdin) then throw .credentials
  if request.clientOutput then
    if request.disableAuth ∨ mode ≠ .basic then throw .clientOutputAuth
    if transport ≠ .http3 then throw .clientOutputTransport
  if request.stealth then
    if request.disableAuth ∨ mode ≠ .basic then throw .stealth

def chooseShards (transport : Transport) : Except AddListenerError (BitVec 64) :=
  match transport, request.shards with
  | .http2, none => .ok 1
  | .http2, some shards => if shards = 1 then .ok 1 else .error (.http2Shards shards)
  | .http3, shards => choose interactive shards (·.shards) (.ok 1)

def checkDatagramSize (transport : Transport) : Except AddListenerError Unit :=
  if transport = .http2 ∧ request.maxDatagramSize.isSome then .error .http2DatagramSize else .ok ()

def chooseAuth (mode : AuthMode) (resolved : Option String) : Except AddListenerError ConfigAuth :=
  if request.disableAuth then .ok ⟨⟨⟨"", "", []⟩, false, mode⟩, false⟩
  else match mode with
    | .clientCert => .ok ⟨⟨⟨"", "", []⟩, true, .clientCert⟩, false⟩
    | .basic => do
      let username ← choose interactive request.username (·.username) (.error .usernameRequired)
      (checkUsername username).mapError .username
      let passwordHash ← resolved.elim (.error .password) .ok
      .ok ⟨⟨⟨"", "", [⟨username, passwordHash⟩]⟩, true, .basic⟩, false⟩

def build (Targets : Type) (terminal : Option PromptAnswers) (resolved : Option String) :
    Except AddListenerError (ListenerBlock Targets) := do
  let interactive := if request.passwordStdin then none else terminal
  let transport ← choose interactive request.transport (·.transport) (.ok .http3)
  let text ← choose interactive request.listenAddr (·.listenAddr) (.error .listenAddrRequired)
  let listenAddr ← (parseSocketAddr text).elim (.error .address) .ok
  let mode ← request.chooseMode interactive
  request.checkFlags transport mode
  let shards ← request.chooseShards interactive transport
  request.checkDatagramSize transport
  let auth ← request.chooseAuth interactive mode resolved
  return ⟨listenAddr, transport, shards, request.maxDatagramSize, none, none, auth⟩

variable {request interactive}

lemma chooseAuth_added {mode : AuthMode} {resolved : Option String} {auth : ConfigAuth}
    (h : request.chooseAuth interactive mode resolved = .ok auth) : AddedAuth auth := by
  unfold chooseAuth at h
  split_ifs at h
  · cases h
    exact .disabled mode
  · cases mode with
    | clientCert =>
      cases h
      exact .clientCert
    | basic =>
      simp only [bind_ok_iff] at h
      obtain ⟨username, -, -, -, passwordHash, -, h⟩ := h
      cases h
      exact .basic _

theorem build_added {Targets : Type} {terminal : Option PromptAnswers} {resolved : Option String}
    {listener : ListenerBlock Targets} (h : request.build Targets terminal resolved =
      .ok listener) :
    listener.Added := by
  simp only [build, bind_ok_iff] at h
  obtain ⟨transport, -, text, -, listenAddr, haddr, mode, -, -, -, shards, -, -, -, auth,
    hauth, h⟩ := h
  cases h
  exact ⟨⟨text, elim_ok_iff.mp haddr⟩, rfl, rfl, chooseAuth_added hauth⟩

end AddListener

/-! ### Reading the blocks back -/

section Meanings

variable {Targets : Type} (listener : ListenerBlock Targets)

def userMeanings (user : BasicUser) : List TomlLine :=
  [.blank, .arrayHeader ["auth", "users"], .pair "username" (.string user.username),
    .pair "password_hash" (.string user.passwordHash)]

def authMeanings (auth : ConfigAuth) : List TomlLine :=
  if !auth.enabled then [.blank, .pair "enabled" (.boolean false)]
  else .pair "enabled" (.boolean true) ::
    match auth.mode with
    | .basic => .pair "mode" (.string "basic") :: (effectiveBasicUsers auth).flatMap userMeanings
    | .clientCert => [.pair "mode" (.string "client_cert")]

def listenerMeanings : List TomlLine :=
  [.pair "listen_addr" (.string (String.ofList listener.listenAddr.display)),
    .pair "transport" (.string listener.transport.asStr),
    .pair "shards" (.integer listener.shards.toNat)] ++
  (listener.maxDatagramSize.toList.map fun size =>
    .pair "max_datagram_size" (.integer size.toNat)) ++
  [.blank, .header ["auth"]] ++ authMeanings listener.auth

def userTable (user : BasicUser) : TomlTable :=
  [("username", .string user.username), ("password_hash", .string user.passwordHash)]

def authTable (auth : ConfigAuth) : TomlTable :=
  if !auth.enabled then [("enabled", .boolean false)]
  else ("enabled", .boolean true) ::
    match auth.mode with
    | .basic => [("mode", .string "basic"),
        ("users", .tables ((effectiveBasicUsers auth).map userTable))]
    | .clientCert => [("mode", .string "client_cert")]

variable {auth : ConfigAuth}

lemma AddedAuth.writes (h : AddedAuth auth) :
    List.Forall₂ Writes (authLines auth)
      ((authMeanings auth).map (TomlLine.within "listeners")) := by
  have hclosed : Writes "enabled = true".toList (.pair "enabled" (.boolean true)) :=
    ⟨by decide, by decide, rfl⟩
  cases h with
  | disabled mode =>
    exact .cons ⟨by decide, by decide, rfl⟩ (.cons ⟨by decide, by decide, rfl⟩ .nil)
  | clientCert => exact .cons hclosed (.cons ⟨by decide, by decide, rfl⟩ .nil)
  | basic user =>
    exact .cons hclosed (.cons ⟨by decide, by decide, rfl⟩ (.cons ⟨by decide, by decide, rfl⟩
      (.cons ⟨by decide, by decide, rfl⟩ (.cons (writes_string (by decide) (by decide) _)
        (.cons (writes_string (by decide) (by decide) _) .nil)))))

def listenerTable : TomlTable :=
  [("listen_addr", .string (String.ofList listener.listenAddr.display)),
    ("transport", .string listener.transport.asStr),
    ("shards", .integer listener.shards.toNat)] ++
  (listener.maxDatagramSize.toList.map fun size => ("max_datagram_size", .integer size.toNat)) ++
  [("auth", .table (authTable listener.auth))]

lemma foldlM_listenerMeanings (h : AddedAuth listener.auth) :
    ∃ path, (listenerMeanings listener).foldlM TomlState.apply ⟨[], []⟩ =
      some ⟨listenerTable listener, path⟩ := by
  obtain ⟨listenAddr, transport, shards, maxDatagramSize, tcpTargets, udpTargets, auth⟩ := listener
  cases h with
  | disabled mode => cases maxDatagramSize <;> exact ⟨_, rfl⟩
  | clientCert => cases maxDatagramSize <;> exact ⟨_, rfl⟩
  | basic user => cases maxDatagramSize <;> exact ⟨_, rfl⟩

lemma AddedAuth.named (h : AddedAuth auth) : ∀ line ∈ authMeanings auth, line.Named := by
  cases h <;> simp [authMeanings, effectiveBasicUsers, userMeanings, TomlLine.Named]

lemma named_listenerMeanings (h : AddedAuth listener.auth) :
    ∀ line ∈ listenerMeanings listener, line.Named := by
  intro line hline
  rw [listenerMeanings, List.mem_append] at hline
  obtain hline | hline := hline
  · cases hsize : listener.maxDatagramSize <;> rw [hsize] at hline <;>
      revert line <;> simp [TomlLine.Named]
  · exact h.named line hline

lemma writes_blank : Writes [] .blank := ⟨by decide, by decide, rfl⟩

theorem readText_listenerTomlBlock (h : AddedAuth listener.auth) {root : TomlTable}
    {elements : List TomlTable} (hroot : root.elements "listeners" = some elements)
    (before : List String) :
    ∃ path, TomlState.readText ⟨root, before⟩ (listenerTomlBlock listener) =
      some ⟨root.set "listeners" (.tables (elements ++ [listenerTable listener])), path⟩ := by
  obtain ⟨path, hpath⟩ := foldlM_listenerMeanings listener h
  have hwrites : List.Forall₂ Writes
      (["# Added by `masque-server add-listener`.".toList, "[[listeners]]".toList,
        keyLine "listen_addr" (tomlString (String.ofList listener.listenAddr.display)),
        keyLine "transport" (tomlString listener.transport.asStr),
        keyLine "shards" (Nat.toDigits 10 listener.shards.toNat)] ++
        (listener.maxDatagramSize.toList.map fun size =>
          keyLine "max_datagram_size" (Nat.toDigits 10 size.toNat)) ++
        [[], "[listeners.auth]".toList] ++ authLines listener.auth)
      (.blank :: .arrayHeader ["listeners"] ::
        (listenerMeanings listener).map (TomlLine.within "listeners")) := by
    have hrest := List.Forall₂.cons (writes_blank) (List.Forall₂.cons
      (⟨by decide, by decide, rfl⟩ :
        Writes "[listeners.auth]".toList (.header ["listeners", "auth"])) h.writes)
    have hfirst : ∀ {lines meanings}, List.Forall₂ Writes lines meanings →
      List.Forall₂ Writes _ _ :=
      fun htail => .cons (⟨by decide, by decide, rfl⟩ :
          Writes "# Added by `masque-server add-listener`.".toList .blank)
        (.cons (⟨by decide, by decide, rfl⟩ :
          Writes "[[listeners]]".toList (.arrayHeader ["listeners"]))
        (.cons (@writes_string "listen_addr" (by decide) (by decide)
          (String.ofList listener.listenAddr.display))
        (.cons (@writes_string "transport" (by decide) (by decide) listener.transport.asStr)
        (.cons (@writes_number "shards" (by decide) (by decide) listener.shards.toNat) htail))))
    unfold listenerMeanings
    cases listener.maxDatagramSize with
    | none => exact hfirst hrest
    | some size =>
      exact hfirst (.cons (@writes_number "max_datagram_size" (by decide) (by decide) size.toNat)
        hrest)
  refine ⟨"listeners" :: path, ?_⟩
  rw [listenerTomlBlock, readText_writeLines _ hwrites, List.foldlM_cons]
  exact foldlM_element hroot (named_listenerMeanings listener h) hpath before

lemma asUsize_integer (n : BitVec 64) : (TomlItem.integer n.toNat).asUsize = some n := by
  rw [TomlItem.asUsize, if_pos n.isLt, BitVec.ofNat_toNat, BitVec.setWidth_eq]

lemma AddedAuth.decode (h : AddedAuth auth) :
    decodeAuth (authTable auth) =
      some { auth with mode := if auth.enabled then auth.mode else .basic } := by
  cases h <;> rfl

theorem decodeListener_listenerTable (decodeTargets : TomlItem → Option Targets)
    (h : AddedAuth listener.auth) (hflow : listener.listenAddr.flowinfo = 0)
    (htcp : listener.tcpTargets = none) (hudp : listener.udpTargets = none) :
    decodeListener decodeTargets (listenerTable listener) =
      some { listener with
        auth.mode := if listener.auth.enabled then listener.auth.mode else .basic } := by
  have haddr := parseSocketAddr_display listener.listenAddr hflow
  have htransport : (TomlItem.string listener.transport.asStr).asTransport =
      some listener.transport := by
    cases listener.transport <;> rfl
  rw [decodeListener_eq_some_iff]
  refine ⟨?_, ?_, htransport, asUsize_integer listener.shards, ?_, ?_, ?_, ?_⟩
  · unfold listenerTable
    cases listener.maxDatagramSize <;> rfl
  · change parseSocketAddr (String.ofList listener.listenAddr.display).toList = _
    rw [String.toList_ofList, haddr]
  · unfold listenerTable
    cases listener.maxDatagramSize with
    | none => rfl
    | some size =>
      change (TomlItem.integer size.toNat).asUsize.map some = some (some size)
      rw [asUsize_integer]
      rfl
  · unfold listenerTable
    rw [htcp]
    cases listener.maxDatagramSize <;> rfl
  · unfold listenerTable
    rw [hudp]
    cases listener.maxDatagramSize <;> rfl
  · unfold listenerTable
    cases listener.maxDatagramSize <;> exact h.decode

end Meanings

section Clients

variable (name publicKeyB64 : String) (ipv4 : Option Ipv4Addr) (ipv6 : Option Ipv6Addr)

def clientMeanings : List TomlLine :=
  [.pair "name" (.string name), .pair "public_key" (.string publicKeyB64)] ++
  (ipv4.toList.map fun ipv4 => .pair "ipv4" (.string (String.ofList (displayIpv4 ipv4)))) ++
  ipv6.toList.map fun ipv6 => .pair "ipv6" (.string (String.ofList (displayIpv6 ipv6)))

def clientTable : TomlTable :=
  [("name", .string name), ("public_key", .string publicKeyB64)] ++
  (ipv4.toList.map fun ipv4 => ("ipv4", .string (String.ofList (displayIpv4 ipv4)))) ++
  ipv6.toList.map fun ipv6 => ("ipv6", .string (String.ofList (displayIpv6 ipv6)))

lemma writes_clientsTomlBlock :
    List.Forall₂ Writes
      (["[[clients]]".toList, keyLine "name" (tomlString name),
        keyLine "public_key" (tomlString publicKeyB64)] ++
      (ipv4.toList.map fun ipv4 => keyLine "ipv4" (quotedAddress (displayIpv4 ipv4))) ++
      ipv6.toList.map fun ipv6 => keyLine "ipv6" (quotedAddress (displayIpv6 ipv6)))
      (.arrayHeader ["clients"] ::
        (clientMeanings name publicKeyB64 ipv4 ipv6).map (TomlLine.within "clients")) := by
  have hfirst : ∀ {lines meanings}, List.Forall₂ Writes lines meanings → List.Forall₂ Writes _ _ :=
    fun htail => .cons (⟨by decide, by decide, rfl⟩ :
      Writes "[[clients]]".toList (.arrayHeader ["clients"]))
      (.cons (@writes_string "name" (by decide) (by decide) name)
      (.cons (@writes_string "public_key" (by decide) (by decide) publicKeyB64) htail))
  have hv4 : ∀ address : Ipv4Addr, Writes (keyLine "ipv4" (quotedAddress (displayIpv4 address)))
      (.pair "ipv4" (.string (String.ofList (displayIpv4 address)))) := fun address =>
    writes_address (by decide) (by decide) fun c hc => isAddressChar_of_mem_displayIpv4 hc
  have hv6 : ∀ address : Ipv6Addr, Writes (keyLine "ipv6" (quotedAddress (displayIpv6 address)))
      (.pair "ipv6" (.string (String.ofList (displayIpv6 address)))) := fun address =>
    writes_address (by decide) (by decide) fun c hc => isAddressChar_of_mem_displayIpv6 hc
  unfold clientMeanings
  cases ipv4 <;> cases ipv6
  · exact hfirst .nil
  · exact hfirst (.cons (hv6 _) .nil)
  · exact hfirst (.cons (hv4 _) .nil)
  · exact hfirst (.cons (hv4 _) (.cons (hv6 _) .nil))

theorem readText_clientsTomlBlock {root : TomlTable} {elements : List TomlTable}
    (hroot : root.elements "clients" = some elements) (before : List String) :
    ∃ path, TomlState.readText ⟨root, before⟩ (clientsTomlBlock name publicKeyB64 ipv4 ipv6) =
      some ⟨root.set "clients" (.tables (elements ++ [clientTable name publicKeyB64 ipv4 ipv6])),
        path⟩ := by
  have hnamed : ∀ line ∈ clientMeanings name publicKeyB64 ipv4 ipv6, line.Named := by
    unfold clientMeanings
    cases ipv4 <;> cases ipv6 <;> simp [TomlLine.Named]
  have hread : (clientMeanings name publicKeyB64 ipv4 ipv6).foldlM TomlState.apply ⟨[], []⟩ =
      some ⟨clientTable name publicKeyB64 ipv4 ipv6, []⟩ := by
    unfold clientMeanings
    cases ipv4 <;> cases ipv6 <;> rfl
  refine ⟨["clients"], ?_⟩
  rw [clientsTomlBlock, readText_writeLines _ (writes_clientsTomlBlock name publicKeyB64 ipv4 ipv6)]
  exact foldlM_element hroot hnamed hread before

theorem decodeClient_clientTable :
    decodeClient (clientTable name publicKeyB64 ipv4 ipv6) =
      some ⟨name, publicKeyB64, ipv4.map fun a => String.ofList (displayIpv4 a),
        ipv6.map fun a => String.ofList (displayIpv6 a)⟩ := by
  unfold clientTable
  cases ipv4 <;> cases ipv6 <;> rfl

end Clients

/-- Generated text cannot be injected into: quoted texts are single literals with their value, and
the blocks read back as the one listener or client they were written for. -/
theorem generatedText_readsBack {Targets : Type} (decodeTargets : TomlItem → Option Targets) :
    (∀ s : String,
      tomlLiterals.IsLiteral (tomlString s) s.toList ∧
        jsonLiterals.IsLiteral (jsonString s) s.toList ∧
      ∀ literal, literal = tomlString s ∨ literal = jsonString s →
        (∀ c ∈ literal, isControl c = false) ∧
        ∃ body, literal = '"' :: (body ++ ['"']) ∧ LiteralGrammar.quotesEscaped false body = true) ∧
    (∀ (request : AddListener) terminal resolved (listener : ListenerBlock Targets),
      request.build Targets terminal resolved = .ok listener → listener.Added) ∧
    (∀ listener : ListenerBlock Targets, listener.Added →
      ∃ table, readTomlDocument (listenerTomlBlock listener) =
        some [("listeners", .tables [table])] ∧
        decodeListener decodeTargets table = some { listener with
          auth.mode := if listener.auth.enabled then listener.auth.mode else .basic }) ∧
    ∀ name publicKeyB64 ipv4 ipv6, ∃ table,
      readTomlDocument (clientsTomlBlock name publicKeyB64 ipv4 ipv6) =
        some [("clients", .tables [table])] ∧
      decodeClient table =
        some ⟨name, publicKeyB64, ipv4.map fun a => String.ofList (displayIpv4 a),
        ipv6.map fun a => String.ofList (displayIpv6 a)⟩ := by
  refine ⟨fun s => ?_, fun _ _ _ _ => AddListener.build_added, fun listener h => ?_, ?_⟩
  · obtain ⟨htoml, htomlText⟩ := quoteString_isLiteral allows_toml writesHex_toUpper s
    obtain ⟨hjson, hjsonText⟩ := quoteString_isLiteral allows_json writesHex_id s
    refine ⟨htoml, hjson, ?_⟩
    rintro literal (rfl | rfl)
    · exact htomlText
    · exact hjsonText
  · have hempty : TomlTable.elements [] "listeners" = some [] := rfl
    obtain ⟨path, hpath⟩ := readText_listenerTomlBlock listener h.auth hempty []
    obtain ⟨text, htext⟩ := h.listenAddr
    refine ⟨listenerTable listener, by rw [readTomlDocument, hpath]; rfl, ?_⟩
    exact decodeListener_listenerTable listener decodeTargets h.auth
      (flowinfo_of_parseSocketAddr htext) h.tcpTargets h.udpTargets
  · intro name publicKeyB64 ipv4 ipv6
    have hempty : TomlTable.elements [] "clients" = some [] := rfl
    obtain ⟨path, hpath⟩ := readText_clientsTomlBlock name publicKeyB64 ipv4 ipv6 hempty []
    exact ⟨clientTable name publicKeyB64 ipv4 ipv6, by rw [readTomlDocument, hpath]; rfl,
      decodeClient_clientTable name publicKeyB64 ipv4 ipv6⟩

def quotedRequest : AddListener :=
  { listenAddr := some "[::1]:4443".toList
    transport := some .http3
    mode := some .basic
    shards := some 2
    maxDatagramSize := some 1200
    username := some "a\"b\\"
    passwordHash := some "$argon2id$x"
    passwordStdin := false
    clientOutput := false
    disableAuth := false
    stealth := false }

def quotedListener : ListenerBlock Unit :=
  ⟨.v6 1 4443 0 0, .http3, 2, some 1200, none, none,
    ⟨⟨⟨"", "", [⟨"a\"b\\", "$argon2id$x"⟩]⟩, true, .basic⟩, false⟩⟩

theorem generatedText_readsBack_quoted :
    quotedRequest.build Unit none (some "$argon2id$x") = .ok quotedListener ∧
    ∃ table, readTomlDocument (listenerTomlBlock quotedListener) =
        some [("listeners", .tables [table])] ∧
      decodeListener (fun _ => some ()) table = some quotedListener := by
  have hbuild : quotedRequest.build Unit none (some "$argon2id$x") = .ok quotedListener := rfl
  obtain ⟨-, hadded, hlistener, -⟩ := generatedText_readsBack fun _ => some ()
  exact ⟨hbuild, hlistener quotedListener (hadded quotedRequest none (some "$argon2id$x") _ hbuild)⟩

end MasqueServer
