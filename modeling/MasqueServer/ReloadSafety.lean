import MasqueServer.ConfigurationReload
import MasqueServer.LeaseSafety

/-!
# A reload replaces everything or nothing

Everything that can fail comes before the first write, except the loop that installs the
credentials, which would fail on a slot that does not fit its listener. Slots are made to fit at
startup and a reload keeps them so, because it refuses a file whose listeners are not those of
startup.
-/
namespace MasqueServer

open List Option

variable {Key Digest Certificate PrivateKey : Type}
  {lib : Libraries Key Digest Certificate PrivateKey} {found : Surroundings Key}

lemma ListenerAuth.reloadKind_eq_basic (auth : ListenerAuth) :
    auth.reloadKind = .basic ↔ auth.basicEnabled = true := by
  unfold reloadKind
  split_ifs with hbasic hcert <;> simp [hbasic]

/-! ### Preparing the credentials -/

/-- The slot of a Basic listener is the credential set built from its section, and its
credentials are among those allocated; any other slot is empty. -/
def HoldsCredentials (lib : Libraries Key Digest Certificate PrivateKey)
    (credentials : List (BasicCredential Key)) (listener : ListenerSection)
    (slot : Option BasicAuthenticator) : Prop :=
  if listener.auth.basicEnabled then
    ∃ keys before auth after, slot = some auth ∧
      fromSection lib.basic keys before listener.auth.toAuthSection = .ok (auth, after) ∧
      after <+: credentials
  else slot = none

variable {credentials : List (BasicCredential Key)} {listener : ListenerSection}
  {slot : Option BasicAuthenticator} {index : ℕ} {listeners : List ListenerSection}
  {built : List (Option BasicAuthenticator) × List (BasicCredential Key)}
  {s : Shared Key Certificate PrivateKey}

lemma HoldsCredentials.mono {credentials' : List (BasicCredential Key)}
    (h : HoldsCredentials lib credentials listener slot) (hle : credentials <+: credentials') :
    HoldsCredentials lib credentials' listener slot := by
  unfold HoldsCredentials at h ⊢
  split_ifs at h ⊢
  · obtain ⟨keys, before, auth, after, hslot, hfrom, hafter⟩ := h
    exact ⟨keys, before, auth, after, hslot, hfrom, hafter.trans hle⟩
  · exact h

lemma HoldsCredentials.isSome (h : HoldsCredentials lib credentials listener slot) :
    slot.isSome = listener.auth.basicEnabled := by
  unfold HoldsCredentials at h
  split_ifs at h with hbasic
  · obtain ⟨_, _, _, _, rfl, -, -⟩ := h
    exact hbasic.symm
  · rw [h, isSome_none]
    exact (Bool.eq_false_iff.mpr hbasic).symm

lemma basicSlot_holds {built : Option BasicAuthenticator × List (BasicCredential Key)}
    (h : basicSlot lib found index listener.auth.basicEnabled credentials listener.auth =
      .ok built) :
    HoldsCredentials lib built.2 listener built.1 ∧ credentials <+: built.2 := by
  unfold basicSlot at h
  unfold HoldsCredentials
  split_ifs at h ⊢ with hbasic
  · obtain ⟨⟨auth, after⟩, hfrom, rfl⟩ := map_ok_iff.mp h
    exact ⟨⟨_, _, auth, after, rfl, hfrom, prefix_rfl⟩, fromSection_keeps hfrom⟩
  · cases h
    exact ⟨rfl, prefix_rfl⟩

theorem startCredentials_slots
    (h : startCredentials lib found index credentials listeners = .ok built) :
    List.Forall₂ (fun listener slot => slot.isSome = listener.auth.basicEnabled) listeners
      built.1 := by
  induction listeners generalizing index credentials built with
  | nil =>
    cases h
    exact .nil
  | cons listener rest ih =>
    rw [startCredentials, bind_ok_iff] at h
    obtain ⟨slot, hslot, h⟩ := h
    rw [bind_ok_iff] at h
    obtain ⟨slots, hslots, h⟩ := h
    cases h
    exact .cons (basicSlot_holds hslot).1.isSome (ih hslots)

theorem prepareListeners_ok {captured : List ReloadListener}
    (hlen : listeners.length = captured.length)
    (h : prepareListeners lib found index credentials (captured.zip listeners) = .ok built) :
    captured = listeners.map (·.reloadListener) ∧
      List.Forall₂ (HoldsCredentials lib built.2) listeners built.1 ∧ credentials <+: built.2 := by
  induction listeners generalizing index credentials captured built with
  | nil =>
    obtain rfl : captured = [] := length_eq_zero_iff.mp hlen.symm
    cases h
    exact ⟨rfl, .nil, prefix_rfl⟩
  | cons listener rest ih =>
    obtain _ | ⟨startup, captured⟩ := captured
    · simp at hlen
    rw [zip_cons_cons, prepareListeners] at h
    split_ifs at h with hsame
    rw [bind_ok_iff] at h
    obtain ⟨slot, hslot, h⟩ := h
    rw [bind_ok_iff] at h
    obtain ⟨slots, hslots, h⟩ := h
    cases h
    obtain rfl := not_not.mp hsame
    have hkind : decide (listener.reloadListener.auth = .basic) = listener.auth.basicEnabled := by
      rw [Bool.eq_iff_iff, decide_eq_true_iff]
      exact listener.auth.reloadKind_eq_basic
    rw [mapError_ok_iff, hkind] at hslot
    obtain ⟨hholds, hkept⟩ := basicSlot_holds hslot
    obtain ⟨hcaptured, hrest, hmore⟩ := ih (by simpa using hlen) hslots
    refine ⟨by rw [map_cons, ← hcaptured], .cons (hholds.mono hmore) hrest, ?_⟩
    exact hkept.trans hmore

/-! ### Installing what was prepared -/

theorem installCredentials_ok (done : List (Option BasicAuthenticator))
    {slots targets : List (Option BasicAuthenticator)}
    (hfit : List.Forall₂ (fun slot target => slot.isSome = target.isSome) slots targets)
    (hs : s.basicAuth = done ++ targets) :
    ∃ counts, (installCredentials done.length (slots.zip targets)).perform s =
      (.ok counts, { s with basicAuth := done ++ slots }) := by
  induction hfit generalizing done s with
  | nil =>
    refine ⟨(0, 0), ?_⟩
    rw [← hs]
    rfl
  | @cons slot target slots targets hsome _ ih =>
    have hlen : ∀ entry : Option BasicAuthenticator, (done ++ [entry]).length =
      done.length + 1 := by
      simp
    obtain _ | replacement := slot <;> obtain _ | current := target <;> cases hsome
    · obtain ⟨counts, hcounts⟩ := ih (done ++ [none]) (s := s) (by simpa using hs)
      rw [hlen, append_assoc] at hcounts
      exact ⟨counts, hcounts⟩
    · have hset : (s.setSlot done.length replacement).basicAuth =
          (done ++ [some replacement]) ++ targets := by
        simp [Shared.setSlot, hs]
      obtain ⟨counts, hcounts⟩ := ih (done ++ [some replacement]) hset
      rw [hlen, append_assoc] at hcounts
      refine ⟨(counts.1 + 1, counts.2 + replacement.size), ?_⟩
      rw [zip_cons_cons, installCredentials,
        Transaction.perform_bind_ok (Transaction.perform_write _ s),
        Transaction.perform_bind_ok hcounts]
      rfl

namespace Shared

variable {s s' : Shared Key Certificate PrivateKey}

def installed (s : Shared Key Certificate PrivateKey) (slots : List (Option BasicAuthenticator))
    (credentials : List (BasicCredential Key)) (registry : Option ClientRegistry)
    (identity : TlsIdentity Certificate PrivateKey) (loadedConfig : ConfigSnapshot) :
    Shared Key Certificate PrivateKey :=
  { s with
    basicAuth := slots
    credentials
    clients := registry.elim s.clients s.clients.replace
    tls := s.tls.replace identity
    loadedConfig }

theorem installReload_ok {slots : List (Option BasicAuthenticator)}
    (hfit : List.Forall₂ (fun slot target => slot.isSome = target.isSome) slots s.basicAuth)
    (credentials : List (BasicCredential Key)) (registry : Option ClientRegistry)
    (identity : TlsIdentity Certificate PrivateKey) (loadedConfig : ConfigSnapshot) :
    ∃ outcome, (installReload slots credentials registry identity loadedConfig).perform s =
      (.ok outcome, s.installed slots credentials registry identity loadedConfig) := by
  have hcredentials : ∃ counts, (installCredentials 0 (slots.zip s.basicAuth)).perform
      { s with credentials } = (.ok counts, { s with credentials, basicAuth := slots }) :=
    installCredentials_ok [] hfit rfl
  obtain ⟨counts, hcounts⟩ := hcredentials
  unfold installReload
  rw [Transaction.perform_bind_ok (Transaction.perform_get s),
    Transaction.perform_bind_ok (Transaction.perform_write _ s),
    Transaction.perform_bind_ok hcounts,
    Transaction.perform_bind_ok (Transaction.perform_write _ _),
    Transaction.perform_bind_ok (Transaction.perform_write _ _),
    Transaction.perform_bind_ok (Transaction.perform_write _ _), Transaction.perform_pure]
  cases registry with
  | none => exact ⟨_, rfl⟩
  | some registry => exact ⟨_, rfl⟩

variable {registry : Option ClientRegistry} {startup file : ServerConfig}
  {configPath : Option String}

lemma reserve_ok {reload : ConfigReload} (h : reserve reload registry s = .ok s') :
    (∃ next, s' =
      { s with world := { s.world with pool := { s.world.pool with reserved := next } } }) ∧
      (∀ r, reload.ipProxyEnabled = true → registry = some r → ∀ addr owner,
        s'.world.pool.reserved.get addr = some owner ↔ (addr, owner) ∈ r.staticReservations) ∧
      (reload.ipProxyEnabled = false ∨ registry = none → s' = s) := by
  unfold reserve at h
  split at h
  · rename_i r henabled
    obtain ⟨pool, hset, rfl⟩ := map_ok_iff.mp h
    obtain ⟨hpool, hget⟩ := AddressPool.setStaticReservations_replaces (mapError_ok_iff.mp hset)
    refine ⟨⟨pool.reserved, ?_⟩, ?_, ?_⟩
    · rw [← hpool]
    · rintro _ - h
      cases h
      exact hget
    · rw [henabled]
      rintro (h | h) <;> cases h
  · rename_i hnot
    cases h
    refine ⟨⟨s.world.pool.reserved, rfl⟩, fun r henabled hr => ?_, fun _ => rfl⟩
    exact (hnot r henabled hr).elim

/-! ### The states of a running server -/

/-- What startup establishes and every step keeps. -/
structure Running (startup : ServerConfig) (configPath : Option String)
    (s : Shared Key Certificate PrivateKey) : Prop where
  consistent : s.world.Consistent
  settings : s.configReload = configReloadSettings startup configPath
  slots : List.Forall₂ (fun listener slot => slot.isSome = listener.auth.basicEnabled)
    startup.listeners s.basicAuth

/-- The state after a reload that read `file`: what a process started with `startup` uses is
taken from the file, except for the TLS paths. -/
structure Applied (lib : Libraries Key Digest Certificate PrivateKey) (found : Surroundings Key)
    (startup : ServerConfig) (configPath : Option String) (file : ServerConfig)
    (s s' : Shared Key Certificate PrivateKey) : Prop where
  read : ∃ path text, configPath = some path ∧ found.readToString path = some text ∧
    lib.parseToml text = some file
  listeners : file.listeners.map (·.reloadListener) = startup.listeners.map (·.reloadListener)
  basic : List.Forall₂ (HoldsCredentials lib s'.credentials) file.listeners s'.basicAuth
  tls : ∃ identity, TlsIdentity.load lib.tls found.readFile startup.tls = .ok identity ∧
    s'.tls = s.tls.replace identity ∧
    ∃ loaded, sections lib.status s.loadedConfig.key file identity.fingerprint = some loaded ∧
      s'.loadedConfig = { s.loadedConfig with sections := s'.loadedConfig.sections } ∧
      ∀ name, s'.loadedConfig.sections.get name =
        ((loaded.get name).filter (·.reloadable)).or (s.loadedConfig.sections.get name)
  roster : anyClientCertListener startup = true → ∃ registry,
    ClientRegistry.fromConfig lib.clients file.clients = .ok registry ∧
    s'.clients.load = registry ∧ s'.clients.generation = s.clients.generation + 1 ∧
    (startup.ipProxy.enabled = true → ∀ addr owner,
      s'.world.pool.reserved.get addr = some owner ↔
        ∃ identity, registry.lookupKey owner = some identity ∧ addr ∈ identity.staticAddresses)
  no_roster : anyClientCertListener startup = false → s'.clients = s.clients
  no_reservations : anyClientCertListener startup = false ∨ startup.ipProxy.enabled = false →
    s'.world.pool.reserved = s.world.pool.reserved
  leases : s'.world =
    { s.world with pool := { s.world.pool with reserved := s'.world.pool.reserved } }
  settings : s'.configReload = s.configReload

lemma activeClientRegistry_ok {config : ServerConfig} {registry : ClientRegistry}
    (h : activeClientRegistry lib.clients config true = .ok registry) :
    ClientRegistry.fromConfig lib.clients config.clients = .ok registry := by
  unfold activeClientRegistry at h
  rw [if_neg (by decide), bind_ok_iff] at h
  obtain ⟨clients, hclients, h⟩ := h
  split_ifs at h
  · cases h
  · cases h
    exact mapError_ok_iff.mp hclients

lemma reloadRegistry_ok {reload : ConfigReload} {config : ServerConfig}
    (h : reloadRegistry lib reload config = .ok registry) :
    (reload.clientCertEnabled = true → ∃ r, registry = some r ∧
      ClientRegistry.fromConfig lib.clients config.clients = .ok r) ∧
    (reload.clientCertEnabled = false → registry = none) := by
  unfold reloadRegistry at h
  split_ifs at h with henabled hany
  · have hcert : anyClientCertListener config = true := by simpa using hany
    rw [hcert, mapError_ok_iff] at h
    obtain ⟨r, hr, rfl⟩ := map_ok_iff.mp h
    refine ⟨fun _ => ⟨r, rfl, activeClientRegistry_ok hr⟩, fun hoff => ?_⟩
    rw [henabled] at hoff
    cases hoff
  · cases h
    exact ⟨fun hon => absurd hon henabled, fun _ => rfl⟩

lemma Running.fits {slots : List (Option BasicAuthenticator)}
    {credentials : List (BasicCredential Key)} (h : s.Running startup configPath)
    (hsame : file.listeners.map (·.reloadListener) = startup.listeners.map (·.reloadListener))
    (hslots : List.Forall₂ (HoldsCredentials lib credentials) file.listeners slots) :
    List.Forall₂ (fun slot target => slot.isSome = target.isSome) slots s.basicAuth := by
  have hrunning := h.slots
  generalize startup.listeners = listeners at hsame hrunning
  generalize s.basicAuth = targets at hrunning ⊢
  generalize file.listeners = currents at hsame hslots
  induction hslots generalizing listeners targets with
  | nil =>
    obtain rfl := map_eq_nil_iff.mp hsame.symm
    cases hrunning
    exact .nil
  | @cons current slot rest slots hholds _ ih =>
    obtain _ | ⟨listener, listeners⟩ := listeners
    · cases hsame
    obtain _ | ⟨htarget, htargets⟩ := hrunning
    rw [map_cons, map_cons, List.cons.injEq] at hsame
    have hkind : current.auth.reloadKind = listener.auth.reloadKind :=
      congrArg ReloadListener.auth hsame.1
    have hbasic : current.auth.basicEnabled = listener.auth.basicEnabled := by
      rw [Bool.eq_iff_iff, ← ListenerAuth.reloadKind_eq_basic, hkind,
        ListenerAuth.reloadKind_eq_basic]
    exact .cons (hholds.isSome.trans (hbasic.trans htarget.symm)) (ih _ _ htargets hsame.2)

theorem reloadConfiguration_allOrNothing (lib : Libraries Key Digest Certificate PrivateKey)
    (found : Surroundings Key) (startup : ServerConfig) (configPath : Option String) :
    Transaction.AllOrNothing (Running startup configPath) (reloadConfiguration lib found)
      fun s _ s' => ∃ file, Applied lib found startup configPath file s s' := by
  unfold reloadConfiguration
  refine .bind_read .read fun s => .bind_read (.require _) fun reload => ?_
  refine .bind_read (.require _) fun text => .bind_read (.require _) fun file => ?_
  refine .bind_read (.require _) fun _ => .bind_read (.require _) fun basic => ?_
  refine .bind_read (.require _) fun identity => .bind_read (.require _) fun loadedConfig => ?_
  refine .bind_read (.require _) fun registry => .bind_write (.attempt _) ?_
  rintro _ - s' ⟨⟨⟨⟨⟨⟨⟨⟨⟨hrunning, rfl⟩, hreload⟩, htext⟩, hfile⟩, hcount⟩, hbasic⟩, hidentity⟩,
    hloaded⟩, hregistry⟩ hreserve
  rw [elim_ok_iff] at hreload htext hfile hloaded
  rw [mapError_ok_iff] at hidentity
  obtain ⟨path, rfl, rfl⟩ := map_eq_some_iff.mp (hrunning.settings.symm.trans hreload)
  have hlen : file.listeners.length =
      (startup.listeners.map (·.reloadListener)).length := by
    by_contra hne
    rw [if_pos hne] at hcount
    cases hcount
  obtain ⟨hsame, hholds, -⟩ := prepareListeners_ok hlen hbasic
  obtain ⟨⟨next, rfl⟩, hreserved, hunreserved⟩ := reserve_ok hreserve
  obtain ⟨hroster, hnoRoster⟩ := reloadRegistry_ok hregistry
  obtain ⟨loaded, hsections, rfl⟩ := map_eq_some_iff.mp hloaded
  obtain ⟨outcome, hinstall⟩ := installReload_ok
    (s := { s with world := { s.world with pool := { s.world.pool with reserved := next } } })
    (hrunning.fits hsame.symm hholds) basic.2 registry identity
    { s.loadedConfig with sections := s.loadedConfig.sections.overlay (·.reloadable) loaded }
  refine ⟨outcome, _, hinstall, file, ?_⟩
  exact
    { read := ⟨path, text, rfl, htext, hfile⟩
      listeners := hsame.symm
      basic := hholds
      tls := ⟨identity, hidentity, rfl, loaded, hsections, rfl, Table.get_overlay _ _ loaded⟩
      roster := by
        intro hcert
        obtain ⟨r, rfl, hr⟩ := hroster hcert
        refine ⟨r, hr, VersionedCell.load_replace _ r, rfl, fun henabled addr owner => ?_⟩
        exact (hreserved r henabled rfl addr owner).trans ClientRegistry.mem_staticReservations
      no_roster := by
        intro hcert
        rw [hnoRoster hcert]
        rfl
      no_reservations := by
        intro hunused
        have hs := hunreserved (hunused.symm.imp id hnoRoster)
        exact congrArg (·.world.pool.reserved) hs
      leases := rfl
      settings := rfl }

lemma Applied.slots (h : Applied lib found startup configPath file s s')
    (hs : s.Running startup configPath) :
    List.Forall₂ (fun listener slot => slot.isSome = listener.auth.basicEnabled)
      startup.listeners s'.basicAuth := by
  have hfits := (hs.fits h.listeners h.basic).flip
  have hslots := hs.slots
  generalize startup.listeners = listeners at hslots ⊢
  generalize s.basicAuth = targets at hslots hfits
  generalize s'.basicAuth = slots at hfits ⊢
  induction hfits generalizing listeners with
  | nil =>
    cases hslots
    exact .nil
  | cons hslot _ ih =>
    obtain _ | ⟨htarget, htargets⟩ := hslots
    exact .cons (hslot.trans htarget) (ih _ htargets)

theorem Applied.running (h : Applied lib found startup configPath file s s')
    (hs : s.Running startup configPath) :
    s'.Running startup configPath := by
  refine ⟨?_, h.settings.trans hs.settings, h.slots hs⟩
  rw [h.leases]
  exact hs.consistent.reserve s'.world.pool.reserved

theorem step_running {e : ServiceEvent Key} (h : s.Running startup configPath)
    (hstep : s.step lib e = some s') :
    s'.Running startup configPath := by
  have htunnel : ∀ e : TunnelEvent, (s.world.step e).map (fun world => { s with world }) = some s' →
      s'.Running startup configPath := by
    intro e he
    obtain ⟨world, hworld, rfl⟩ := map_eq_some_iff.mp he
    exact ⟨World.step_consistent h.consistent hworld, h.settings, h.slots⟩
  cases e with
  | tunnel e =>
    cases e with
    | setStaticReservations reservations => cases hstep
    | lease owner transport identity => exact htunnel _ hstep
    | act owner action => exact htunnel _ hstep
    | lookup packet => exact htunnel _ hstep
  | reload found =>
    have hreload := reloadConfiguration_allOrNothing lib found startup configPath s h
    obtain rfl := (some.inj hstep).symm
    generalize (reloadConfiguration lib found).perform s = result at hreload ⊢
    obtain ⟨_ | outcome, s'⟩ := result
    · obtain rfl : s' = s := hreload
      exact h
    · obtain ⟨file, happlied⟩ := hreload
      exact happlied.running h

end Shared

/-! ### Startup -/

lemma reserveEach_ok {reservations : List (IpAddr × ClientKey)} {pool pool' : AddressPool}
    (h : reserveEach reservations pool = .ok pool') :
    ∃ next, pool' = { pool with reserved := next } := by
  induction reservations generalizing pool with
  | nil =>
    cases h
    exact ⟨_, rfl⟩
  | cons entry rest ih =>
    obtain ⟨addr, owner⟩ := entry
    rw [reserveEach, bind_ok_iff] at h
    obtain ⟨first, hfirst, h⟩ := h
    obtain rfl := AddressPool.reserveStatic_ok (mapError_ok_iff.mp hfirst)
    obtain ⟨next, rfl⟩ := ih h
    exact ⟨next, rfl⟩

lemma AddressPool.new_ok {parseV4 : String → Option (Cidr 32)}
    {parseV6 : String → Option (Cidr 128)}
    {v4Cidr v6Cidr : String} {pool : AddressPool}
    (h : AddressPool.new parseV4 parseV6 v4Cidr v6Cidr = .ok pool) :
    pool = .fresh pool.v4Net pool.v6Net := by
  simp only [AddressPool.new, bind, Except.bind, pure, Except.pure] at h
  repeat' split at h
  all_goals cases h <;> rfl

theorem bindWithReload_running {version : String} {statusKey : Option Bytes}
    {startup : ServerConfig} {configPath : Option String}
    (h : bindWithReload lib found version statusKey startup configPath = .ok s) :
    s.Running startup configPath := by
  simp only [bindWithReload, bind_ok_iff, mapError_ok_iff, elim_ok_iff] at h
  obtain ⟨clients, -, pool, hpool, reserved, hreserved, identity, -, basic, hbasic, key,
    -, loaded, -,
    h⟩ := h
  cases h
  have hnext : ∃ next, reserved = { pool with reserved := next } := by
    unfold startReservations at hreserved
    split_ifs at hreserved
    · exact reserveEach_ok hreserved
    · cases hreserved
      exact ⟨_, rfl⟩
  obtain ⟨next, rfl⟩ := hnext
  refine ⟨?_, rfl, startCredentials_slots hbasic⟩
  have hstart := World.start_consistent pool.v4Net pool.v6Net
  have hfresh : (World.start pool.v4Net pool.v6Net).pool = pool := (AddressPool.new_ok hpool).symm
  have hconsistent := hstart.reserve next
  rwa [hfresh] at hconsistent

/-! ### All or nothing -/

/-- In every state of a running server: a reload that fails leaves the whole shared state as it
was, one that succeeds applies the file; reservations are replaced all or none; and a client's
pinned addresses are claimed all or none. -/
theorem reload_allOrNothing {version : String} {statusKey : Option Bytes}
    {startup : ServerConfig} {configPath : Option String} {events : List (ServiceEvent Key)}
    {s₀ s : Shared Key Certificate PrivateKey}
    (hstart : bindWithReload lib found version statusKey startup configPath = .ok s₀)
    (hrun : run (fun s e => s.step lib e) s₀ events = some s) :
    (∀ found', match (reloadConfiguration lib found').perform s with
      | (.ok _, s') => ∃ file, s.Applied lib found' startup configPath file s'
      | (.error _, s') => s' = s) ∧
    (∀ (pool : AddressPool) (reservations : List (IpAddr × ClientKey)),
      match (Transaction.attempt fun pool : AddressPool =>
        pool.setStaticReservations reservations).perform pool with
      | (.ok _, pool') => pool' = { pool with reserved := pool'.reserved } ∧
          ∀ addr owner, pool'.reserved.get addr = some owner ↔ (addr, owner) ∈ reservations
      | (.error _, pool') => pool' = pool) ∧
    ∀ identity : ClientIdentity, match s.world.pool.claimStaticAddresses identity with
      | (pool', .ok addrs) => addrs = identity.staticAddresses ∧ s.world.pool.OnlyLeases pool' ∧
          ∀ addr, pool'.allocated.get addr = if addr ∈ identity.staticAddresses then
            some ⟨s.world.pool.claimsOn addr + 1, some identity.key⟩
          else s.world.pool.allocated.get addr
      | (pool', .error _) => s.world.pool.OnlyLeases pool' ∧
          ∀ addr, pool'.allocated.get addr = s.world.pool.allocated.get addr := by
  have hrunning : s.Running startup configPath :=
    run_preserves (fun _ _ _ h hstep => Shared.step_running h hstep)
      (bindWithReload_running hstart) hrun
  refine ⟨fun found' => ?_, fun pool reservations => ?_, ?_⟩
  · have hreload := Shared.reloadConfiguration_allOrNothing lib found' startup configPath s hrunning
    generalize (reloadConfiguration lib found').perform s = result at hreload ⊢
    obtain ⟨_ | outcome, s'⟩ := result
    · exact hreload
    · exact hreload
  · have hset := Transaction.AllOrNothing.attempt (P := fun _ => True)
      (fun pool : AddressPool => pool.setStaticReservations reservations) pool trivial
    generalize (Transaction.attempt fun pool : AddressPool =>
      pool.setStaticReservations reservations).perform pool = result at hset ⊢
    obtain ⟨_ | _, pool'⟩ := result
    · exact hset
    · exact AddressPool.setStaticReservations_replaces hset
  · exact hrunning.consistent.balanced.claimStaticAddresses

def pinnedConfig : ServerConfig where
  listeners := [⟨.v4 0 443, .http3, ⟨⟨"u", "hash", []⟩, true, .basic⟩, ""⟩,
    ⟨.v4 0 444, .http2, ⟨⟨"", "", []⟩, true, .clientCert⟩, ""⟩]
  clients := [⟨"phone", "k", some "10.0.0.3", none⟩]
  tls := ⟨"cert", "key"⟩
  ipProxy := ⟨true, "10.0.0.0/29", "", ""⟩
  tuning := fun _ => ""

/-- Every file parses, every certificate fits its key, and bytes are their own digest. -/
def pinnedLibraries : Libraries ℕ (ℕ × Bytes) Bytes Bytes where
  parseToml := fun _ => some pinnedConfig
  parseV4 := fun _ => some Ledger.sampleNet
  parseV6 := fun _ => none
  basic := ⟨some, Prod.mk, fun _ => some "argon2id", fun _ _ => true, fun _ _ _ h =>
    (Prod.mk.inj h).2⟩
  clients := ⟨fun _ => some [1], fun _ => some 0x0a000003, fun _ => none, some, fun _ => ""⟩
  tls := ⟨fun pem => some [pem], some, some, fun _ _ => true, some, id, fun _ _ _ => true⟩
  status := ⟨fun _ => some [], fun _ bytes => bytes⟩

def pinnedFiles : Surroundings ℕ :=
  ⟨fun _ => some "", fun _ => some [2], fun _ => some [3], fun _ index => some index⟩

def pinnedStart : Except StartupError (Shared ℕ Bytes Bytes) :=
  bindWithReload pinnedLibraries pinnedFiles "1" (some [4]) pinnedConfig (some "config.toml")

def pinnedServer :
    Shared ℕ Bytes Bytes := pinnedStart.toOption.get (by decide +kernel)

def pinnedEvents : List (ServiceEvent ℕ) :=
  [.tunnel (.lease ⟨1, 0⟩ .http3 (some ⟨"phone", [1], some 0x0a000003, none⟩)), .reload pinnedFiles]

def pinnedEnd : Shared ℕ Bytes Bytes :=
  (run (fun s e => s.step pinnedLibraries e) pinnedServer pinnedEvents).get (by decide +kernel)

/-- There, the roster is in its second version, and one more reload applies the file again. -/
theorem reload_allOrNothing_pinned :
    pinnedStart = .ok pinnedServer ∧
    run (fun s e => s.step pinnedLibraries e) pinnedServer pinnedEvents = some pinnedEnd ∧
    pinnedEnd.clients.generation = 1 ∧ pinnedEnd.world.pool.claimsOn (.v4 0x0a000003) = 1 ∧
    ∃ outcome s' file, (reloadConfiguration pinnedLibraries pinnedFiles).perform pinnedEnd =
        (.ok outcome, s') ∧
      pinnedEnd.Applied pinnedLibraries pinnedFiles pinnedConfig (some "config.toml") file s' := by
  have hstart : pinnedStart = .ok pinnedServer := rfl
  have hrun : run (fun s e => s.step pinnedLibraries e) pinnedServer pinnedEvents =
    some pinnedEnd :=
    (some_get _).symm
  obtain ⟨hreload, -, -⟩ := reload_allOrNothing hstart hrun
  have happlied := hreload pinnedFiles
  have hok : ((reloadConfiguration pinnedLibraries pinnedFiles).perform pinnedEnd).1.isOk =
    true := by
    decide +kernel
  refine ⟨hstart, hrun, by decide +kernel, by decide +kernel, ?_⟩
  generalize (reloadConfiguration pinnedLibraries pinnedFiles).perform pinnedEnd =
    result at happlied hok ⊢
  obtain ⟨_ | outcome, s'⟩ := result
  · cases hok
  · obtain ⟨file, happlied⟩ := happlied
    exact ⟨outcome, s', file, rfl, happlied⟩

end MasqueServer
