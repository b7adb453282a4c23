import MasqueServer.ClientIdentity
import MasqueServer.FallibleLists

/-!
# The client registry

The configured clients, indexed by public key. A registry is built from the `[[clients]]` tables;
two entries that share a key or a pinned address refuse the whole configuration, and a registry
carries both facts.
-/
namespace MasqueServer

open List Table

/-- The third-party readers the registry is built over: public keys and certificates come
back as canonical SubjectPublicKeyInfo. -/
structure ClientCodec where
  parsePublicKey : String → Option ClientKey
  parseIpv4 : String → Option Ipv4Addr
  parseIpv6 : String → Option Ipv6Addr
  spkiFromCertDer : Bytes → Option ClientKey
  encodeKey : ClientKey → String

structure ClientEntry where
  name : String
  publicKey : String
  ipv4 : Option String
  ipv6 : Option String

inductive RegistryError
  | publicKey (label : String)
  | ipv4 (label text : String)
  | ipv6 (label text : String)
  | sharedKey (existing label : String)
  | sharedAddress (other name : String) (addr : IpAddr)

inductive IdentityError
  | malformedCertificate
  | unknownKey (key : String)

def parsePinned {α : Type} (parse : String → Option α) (error : String → RegistryError) :
    Option String → Except RegistryError (Option α)
  | none => .ok none
  | some text => (parse text).elim (.error (error text)) fun addr => .ok (some addr)

def entryIdentity (codec : ClientCodec) (position : ℕ) (entry : ClientEntry) :
    Except RegistryError ClientIdentity := do
  let label := if entry.name.isEmpty then s!"clients[{position}]" else entry.name
  let key ← (codec.parsePublicKey entry.publicKey).elim (.error (.publicKey label)) .ok
  let ipv4 ← parsePinned codec.parseIpv4 (.ipv4 label) entry.ipv4
  let ipv6 ← parsePinned codec.parseIpv6 (.ipv6 label) entry.ipv6
  return ⟨label, key, ipv4, ipv6⟩

def collectClients (codec : ClientCodec) :
    ℕ → Table ClientKey ClientIdentity → List ClientEntry →
      Except RegistryError (Table ClientKey ClientIdentity)
  | _, bySpki, [] => .ok bySpki
  | position, bySpki, entry :: entries => do
    let identity ← entryIdentity codec position entry
    match bySpki.get identity.key with
    | some existing => .error (.sharedKey existing.name identity.name)
    | none => collectClients codec (position + 1) (bySpki.put identity.key identity) entries

def pins (bySpki : Table ClientKey ClientIdentity) : List (IpAddr × String) :=
  bySpki.entries.flatMap fun e => e.2.staticAddresses.map fun addr => (addr, e.2.name)

def checkPinned : Table IpAddr String → List (IpAddr × String) → Except RegistryError Unit
  | _, [] => .ok ()
  | seen, (addr, name) :: rest =>
    match seen.get addr with
    | some other => .error (.sharedAddress other name addr)
    | none => checkPinned (seen.put addr name) rest

lemma collectClients_keyed {codec : ClientCodec} {position : ℕ}
    {bySpki result : Table ClientKey ClientIdentity} {entries : List ClientEntry}
    (hkeyed : ∀ k identity, bySpki.get k = some identity → identity.key = k)
    (h : collectClients codec position bySpki entries = .ok result) :
    ∀ k identity, result.get k = some identity → identity.key = k := by
  induction entries generalizing position bySpki with
  | nil =>
    cases h
    exact hkeyed
  | cons entry entries ih =>
    rw [collectClients, bind_ok_iff] at h
    obtain ⟨identity, -, h⟩ := h
    split at h
    · cases h
    · refine ih ?_ h
      intro k other hk
      obtain ⟨rfl, rfl⟩ | ⟨-, hk⟩ := get_put_cases hk
      · rfl
      · exact hkeyed k other hk

lemma checkPinned_nodup {seen : Table IpAddr String} {rest : List (IpAddr × String)}
    (h : checkPinned seen rest = .ok ()) :
    (∀ addr ∈ rest.map Prod.fst, seen.get addr = none) ∧ (rest.map Prod.fst).Nodup := by
  induction rest generalizing seen with
  | nil => simp
  | cons pin rest ih =>
    obtain ⟨addr, name⟩ := pin
    rw [checkPinned] at h
    split at h
    · cases h
    · rename_i hnone
      obtain ⟨hfresh, hnodup⟩ := ih h
      have hother : ∀ other ∈ rest.map Prod.fst, other ≠ addr ∧ seen.get other = none := by
        intro other hmem
        have hget := hfresh other hmem
        rw [get_put] at hget
        split_ifs at hget with heq
        exact ⟨heq, hget⟩
      refine ⟨?_, ?_⟩
      · intro other hmem
        rcases mem_cons.mp hmem with heq | hmem
        · rw [heq]
          exact hnone
        · exact (hother other hmem).2
      · refine nodup_cons.mpr ⟨fun hmem => ?_, hnodup⟩
        exact (hother addr hmem).1 rfl

/-- Every client is stored under its own key, and no address is pinned twice. -/
structure ClientRegistry where
  bySpki : Table ClientKey ClientIdentity
  keyed : ∀ k identity, bySpki.get k = some identity → identity.key = k
  pinned : ((pins bySpki).map Prod.fst).Nodup

namespace ClientRegistry

def empty : ClientRegistry := ⟨∅, by simp, by simp [pins]⟩

def fromConfig (codec : ClientCodec) (entries : List ClientEntry) :
    Except RegistryError ClientRegistry :=
  match hclients : collectClients codec 0 ∅ entries with
  | .error e => .error e
  | .ok bySpki =>
    match hpins : checkPinned ∅ (pins bySpki) with
    | .error e => .error e
    | .ok () => .ok ⟨bySpki, collectClients_keyed (by simp) hclients, (checkPinned_nodup hpins).2⟩

def size (registry : ClientRegistry) : ℕ := registry.bySpki.size

variable (registry : ClientRegistry)

def isEmpty : Bool := registry.size = 0

def staticReservations : List (IpAddr × ClientKey) :=
  registry.bySpki.entries.flatMap fun e => e.2.staticAddresses.map fun addr => (addr, e.2.key)

def lookupKey (key : ClientKey) : Option ClientIdentity :=
  registry.bySpki.get key

def stillAuthorizes (identity : ClientIdentity) : Bool :=
  match registry.lookupKey identity.key with
  | some current => current = identity
  | none => false

def identify (codec : ClientCodec) (registry : ClientRegistry) (certDer : Bytes) :
    Except IdentityError ClientIdentity :=
  match codec.spkiFromCertDer certDer with
  | none => .error .malformedCertificate
  | some spki =>
    match registry.bySpki.get spki with
    | some identity => .ok identity
    | none => .error (.unknownKey (codec.encodeKey spki))

variable {registry : ClientRegistry} {identity : ClientIdentity}

theorem mem_staticReservations {addr : IpAddr} {owner : ClientKey} :
    (addr, owner) ∈ registry.staticReservations ↔
      ∃ identity, registry.lookupKey owner = some identity ∧ addr ∈ identity.staticAddresses := by
  unfold staticReservations lookupKey
  rw [mem_flatMap]
  constructor
  · rintro ⟨⟨k, identity⟩, hmem, haddr⟩
    have hget := mem_entries.mp hmem
    obtain ⟨addr', haddr', heq⟩ := List.mem_map.mp haddr
    obtain ⟨rfl, rfl⟩ := Prod.mk.inj heq
    rw [← registry.keyed k identity hget] at hget
    exact ⟨identity, hget, haddr'⟩
  · rintro ⟨identity, hget, haddr⟩
    refine ⟨⟨owner, identity⟩, mem_entries.mpr hget, ?_⟩
    rw [← registry.keyed owner identity hget]
    exact List.mem_map.mpr ⟨addr, haddr, rfl⟩

theorem stillAuthorizes_iff :
    registry.stillAuthorizes identity = true ↔ registry.lookupKey identity.key = some identity := by
  unfold stillAuthorizes
  cases registry.lookupKey identity.key <;> simp

theorem identify_authorizes {codec : ClientCodec} {certDer : Bytes}
    (h : registry.identify codec certDer = .ok identity) :
    registry.stillAuthorizes identity = true := by
  unfold identify at h
  split at h
  · cases h
  · rename_i spki _
    split at h
    · rename_i found hfound
      cases h
      rw [stillAuthorizes_iff, lookupKey, registry.keyed spki identity hfound, hfound]
    · cases h

end ClientRegistry

end MasqueServer
