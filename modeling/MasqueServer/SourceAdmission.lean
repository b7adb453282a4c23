import MasqueServer.FiniteTable
import MasqueServer.IpAddress
import MasqueServer.Runs

/-!
# Admissions per source address

Every transport connection holds a guard that is bound to a source address. A table counts the
guards of each source, under one lock: a guard is acquired, moved to another source when its
connection migrates, and dropped.
-/
namespace MasqueServer

open Table

namespace SourceAdmission

def canonicalIp : IpAddr → IpAddr
  | .v6 ip => ((toIpv4Mapped ip).map IpAddr.v4).getD (.v6 ip)
  | ip => ip

lemma canonicalIp_eq (ip : IpAddr) : canonicalIp ip = ip.toCanonical := by
  cases ip with
  | v4 a => rfl
  | v6 a => cases h : toIpv4Mapped a <;> simp [canonicalIp, IpAddr.toCanonical, h]

lemma canonicalIp_mapped (a : Ipv4Addr) :
    canonicalIp (.v6 (toIpv6Mapped a)) = canonicalIp (.v4 a) := by
  simp [canonicalIp_eq, IpAddr.toCanonical]

lemma canonicalIp_idem (ip : IpAddr) : canonicalIp (canonicalIp ip) = canonicalIp ip := by
  cases ip with
  | v4 a => rfl
  | v6 a => cases h : toIpv4Mapped a <;> simp [canonicalIp, h]

abbrev Counts := Table IpAddr ℕ

def decrement (counts : Counts) (source : IpAddr) : Option Counts := do
  let count ← counts.get source
  if count = 0 then none
  else if count - 1 = 0 then some (counts.remove source)
  else some (counts.put source (count - 1))

def tryAcquire (maxPerIp : ℕ) (counts : Counts) (source : IpAddr) : Counts × Option IpAddr :=
  let source := canonicalIp source
  let count := (counts.get source).getD 0
  let entered := counts.put source count
  if maxPerIp ≤ count then (entered, none)
  else (entered.put source (count + 1), some source)

def tryRebind (maxPerIp : ℕ) (counts : Counts) (own source : IpAddr) :
    Option (Counts × IpAddr × Bool) :=
  let source := canonicalIp source
  if source = own then some (counts, own, true)
  else if (counts.get own).getD 0 = 0 then some (counts, own, false)
  else if maxPerIp ≤ (counts.get source).getD 0 then some (counts, own, false)
  else (decrement (counts.put source ((counts.get source).getD 0 + 1)) own).map
    fun counts => (counts, source, true)

def drop (counts : Counts) (own : IpAddr) : Option Counts :=
  match counts.get own with
  | none => some counts
  | some _ => decrement counts own

/-- The counters, and the source of every live guard. -/
structure Admissions where
  counts : Counts := ∅
  guards : Table ℕ IpAddr := ∅

/-- What the tasks of all shards do under the lock, each with a guard of its own. -/
inductive Event where
  | acquire (guard : ℕ) (source : IpAddr)
  | rebind (guard : ℕ) (source : IpAddr)
  | drop (guard : ℕ)
  deriving DecidableEq

def step (maxPerIp : ℕ) (s : Admissions) : Event → Option Admissions
  | .acquire guard source =>
    if s.guards.contains guard then none
    else match tryAcquire maxPerIp s.counts source with
      | (counts, none) => some { s with counts }
      | (counts, some own) => some ⟨counts, s.guards.put guard own⟩
  | .rebind guard source => do
    let own ← s.guards.get guard
    let (counts, own, _) ← tryRebind maxPerIp s.counts own source
    return ⟨counts, s.guards.put guard own⟩
  | .drop guard => do
    let own ← s.guards.get guard
    let counts ← drop s.counts own
    return ⟨counts, s.guards.remove guard⟩

def bound (guards : Table ℕ IpAddr) (ip : IpAddr) : ℕ :=
  guards.total fun source => if source = ip then 1 else 0

def Counted (counts : Counts) (number : IpAddr → ℕ) : Prop :=
  ∀ ip, counts.get ip = if number ip = 0 then none else some (number ip)

namespace Counted

variable {counts : Counts} {number : IpAddr → ℕ} {source : IpAddr}

lemma getD_eq (h : Counted counts number) (ip : IpAddr) : (counts.get ip).getD 0 = number ip := by
  rw [h ip]
  split_ifs with hzero
  · exact hzero.symm
  · rfl

lemma congr {counts' : Counts} {number' : IpAddr → ℕ} (h : Counted counts number)
    (hget : ∀ ip, counts'.get ip = counts.get ip) (hnumber : ∀ ip, number' ip = number ip) :
    Counted counts' number' := by
  intro ip
  rw [hget, hnumber, h ip]

lemma increment (h : Counted counts number) (source : IpAddr) :
    Counted (counts.put source (number source + 1)) fun ip =>
      if ip = source then number ip + 1 else number ip := by
  intro ip
  rw [get_put]
  by_cases hip : ip = source
  · simp [hip]
  · simp only [if_neg hip]
    exact h ip

lemma decrement (h : Counted counts number) (hpos : 0 < number source) :
    ∃ counts', SourceAdmission.decrement counts source = some counts' ∧
      Counted counts' fun ip => if ip = source then number ip - 1 else number ip := by
  have hget : counts.get source = some (number source) := by rw [h source, if_neg hpos.ne']
  simp only [SourceAdmission.decrement, hget, Option.bind_eq_bind, Option.bind_some,
    if_neg hpos.ne']
  by_cases hlast : number source - 1 = 0
  · rw [if_pos hlast]
    refine ⟨_, rfl, fun ip => ?_⟩
    rw [Table.get_remove]
    by_cases hip : ip = source
    · simp [hip, hlast]
    · simp only [if_neg hip]
      exact h ip
  · rw [if_neg hlast]
    refine ⟨_, rfl, fun ip => ?_⟩
    rw [get_put]
    by_cases hip : ip = source
    · simp [hip, hlast]
    · simp only [if_neg hip]
      exact h ip

end Counted

/-! ### Guards -/

variable {maxPerIp guard : ℕ} {guards : Table ℕ IpAddr} {own source : IpAddr} {s s' : Admissions}
  {counts : Counts} {event : Event}

lemma bound_put_new (h : guards.get guard = none) (source ip : IpAddr) :
    bound (guards.put guard source) ip =
      if ip = source then bound guards ip + 1 else bound guards ip := by
  have htotal := total_put (fun v => if v = ip then 1 else 0) guards guard source
  rw [h, Option.map_none, Option.getD_none] at htotal
  simp only [eq_comm (a := ip), bound]
  split_ifs at htotal ⊢ <;> omega

lemma bound_remove (h : guards.get guard = some own) (ip : IpAddr) :
    bound (guards.remove guard) ip = if ip = own then bound guards ip - 1 else bound guards ip := by
  have htotal := total_remove (fun v => if v = ip then 1 else 0) guards guard
  rw [h, Option.map_some, Option.getD_some] at htotal
  simp only [eq_comm (a := ip), bound]
  split_ifs at htotal ⊢ <;> omega

lemma bound_put (h : guards.get guard = some own) (hne : source ≠ own) (ip : IpAddr) :
    bound (guards.put guard source) ip =
      if ip = own then bound guards ip - 1
      else if ip = source then bound guards ip + 1 else bound guards ip := by
  have htotal := total_put (fun v => if v = ip then 1 else 0) guards guard source
  rw [h, Option.map_some, Option.getD_some] at htotal
  unfold bound
  by_cases hown : ip = own
  · subst hown
    rw [if_pos rfl, if_neg hne] at htotal
    rw [if_pos rfl]
    omega
  · rw [if_neg (Ne.symm hown)] at htotal
    rw [if_neg hown]
    by_cases hip : ip = source
    · rw [if_pos hip.symm] at htotal
      rw [if_pos hip]
      omega
    · rw [if_neg (Ne.symm hip)] at htotal
      rw [if_neg hip]
      omega

lemma bound_put_same (h : guards.get guard = some own) (ip : IpAddr) :
    bound (guards.put guard own) ip = bound guards ip := by
  have htotal := total_put (fun v => if v = ip then 1 else 0) guards guard own
  rw [h, Option.map_some, Option.getD_some] at htotal
  exact Nat.add_right_cancel htotal

lemma bound_pos (h : guards.get guard = some own) : 0 < bound guards own := by
  have hle := Table.le_total (f := fun v => if v = own then 1 else 0) h
  rw [if_pos rfl] at hle
  exact hle

/-- The counters are right, no source is above the limit, and guards are bound to canonical
addresses. -/
structure Accounted (maxPerIp : ℕ) (s : Admissions) : Prop where
  counted : Counted s.counts (bound s.guards)
  le_limit : ∀ ip, bound s.guards ip ≤ maxPerIp
  canonical : ∀ guard own, s.guards.get guard = some own → canonicalIp own = own

namespace Accounted

lemma start (maxPerIp : ℕ) : Accounted maxPerIp {} :=
  ⟨fun _ => rfl, fun _ => Nat.zero_le _, fun _ _ h => by cases h⟩

lemma tryAcquire (h : Accounted maxPerIp s) (hmax : 1 ≤ maxPerIp) (source : IpAddr) :
    ∃ counts, (∀ ip, counts.get ip = s.counts.get ip) ∧
        SourceAdmission.tryAcquire maxPerIp s.counts source = (counts, none) ∨
      Counted counts (fun ip =>
        if ip = canonicalIp source then bound s.guards ip + 1 else bound s.guards ip) ∧
        bound s.guards (canonicalIp source) < maxPerIp ∧
        SourceAdmission.tryAcquire maxPerIp s.counts source =
          (counts, some (canonicalIp source)) := by
  simp only [SourceAdmission.tryAcquire, h.counted.getD_eq]
  by_cases hfull : maxPerIp ≤ bound s.guards (canonicalIp source)
  · refine ⟨_, .inl ⟨fun ip => ?_, if_pos hfull⟩⟩
    rw [get_put]
    by_cases hip : ip = canonicalIp source
    · rw [if_pos hip, hip, h.counted, if_neg (by omega)]
    · rw [if_neg hip]
  · refine ⟨_, .inr ⟨?_, not_le.mp hfull, if_neg hfull⟩⟩
    refine (h.counted.increment (canonicalIp source)).congr (fun ip => ?_) fun _ => rfl
    simp only [get_put]
    split_ifs <;> rfl

lemma acquired (h : Accounted maxPerIp s) (hguard : s.guards.get guard = none)
    (hcounted : Counted counts fun ip =>
      if ip = canonicalIp source then bound s.guards ip + 1 else bound s.guards ip)
    (hroom : bound s.guards (canonicalIp source) < maxPerIp) :
    Accounted maxPerIp ⟨counts, s.guards.put guard (canonicalIp source)⟩ := by
  refine ⟨hcounted.congr (fun _ => rfl) (bound_put_new hguard _), fun ip => ?_, fun g o hg => ?_⟩
  · rw [bound_put_new hguard]
    split_ifs with hip
    · exact hip ▸ hroom
    · exact h.le_limit ip
  · rw [get_put, ite_eq_iff] at hg
    obtain ⟨-, hg⟩ | ⟨-, hg⟩ := hg
    · rw [← Option.some.inj hg, canonicalIp_idem]
    · exact h.canonical g o hg

lemma tryRebind (h : Accounted maxPerIp s) (hguard : s.guards.get guard = some own)
    (source : IpAddr) :
    ∃ counts own' moved,
      SourceAdmission.tryRebind maxPerIp s.counts own source = some (counts, own', moved) ∧
      Accounted maxPerIp ⟨counts, s.guards.put guard own'⟩ ∧
      (moved = false → own' = own ∧ counts = s.counts) := by
  have hkeep : Accounted maxPerIp ⟨s.counts, s.guards.put guard own⟩ := by
    refine ⟨h.counted.congr (fun _ => rfl) (bound_put_same hguard), fun ip => ?_, fun g o hg => ?_⟩
    · rw [bound_put_same hguard]
      exact h.le_limit ip
    · rw [get_put, ite_eq_iff] at hg
      obtain ⟨-, hg⟩ | ⟨-, hg⟩ := hg
      · exact Option.some.inj hg ▸ h.canonical guard own hguard
      · exact h.canonical g o hg
  have hpos := bound_pos hguard
  simp only [SourceAdmission.tryRebind, h.counted.getD_eq, if_neg hpos.ne']
  by_cases hsame : canonicalIp source = own
  · exact ⟨s.counts, own, true, if_pos hsame, hkeep, by simp⟩
  · rw [if_neg hsame]
    by_cases hfull : maxPerIp ≤ bound s.guards (canonicalIp source)
    · exact ⟨s.counts, own, false, if_pos hfull, hkeep, fun _ => ⟨rfl, rfl⟩⟩
    · rw [if_neg hfull]
      have hcounted := h.counted.increment (canonicalIp source)
      have hpos' : 0 < if own = canonicalIp source then bound s.guards own + 1
          else bound s.guards own := by rwa [if_neg (Ne.symm hsame)]
      obtain ⟨counts, hdecrement, hcounted'⟩ := hcounted.decrement hpos'
      refine ⟨counts, canonicalIp source, true, by rw [hdecrement, Option.map_some], ?_, by simp⟩
      have hbound := bound_put hguard hsame
      refine ⟨hcounted'.congr (fun _ => rfl) fun ip => ?_, fun ip => ?_, fun g o hg => ?_⟩
      · rw [hbound]
        by_cases hown : ip = own
        · simp only [hown, if_neg (Ne.symm hsame)]
        · simp only [if_neg hown]
      · rw [hbound]
        have hle := h.le_limit ip
        split_ifs with hown hip
        · omega
        · exact hip ▸ not_le.mp hfull
        · exact hle
      · rw [get_put, ite_eq_iff] at hg
        obtain ⟨-, hg⟩ | ⟨-, hg⟩ := hg
        · rw [← Option.some.inj hg, canonicalIp_idem]
        · exact h.canonical g o hg

lemma drop (h : Accounted maxPerIp s) (hguard : s.guards.get guard = some own) :
    ∃ counts, SourceAdmission.drop s.counts own = some counts ∧
      Accounted maxPerIp ⟨counts, s.guards.remove guard⟩ := by
  have hpos := bound_pos hguard
  obtain ⟨counts, hdecrement, hcounted⟩ := h.counted.decrement hpos
  have hget : s.counts.get own = some (bound s.guards own) := by
    rw [h.counted own, if_neg hpos.ne']
  refine ⟨counts, by simp only [SourceAdmission.drop, hget, hdecrement], ?_, fun ip => ?_, ?_⟩
  · exact hcounted.congr (fun _ => rfl) (bound_remove hguard)
  · rw [bound_remove hguard]
    have hle := h.le_limit ip
    split_ifs <;> omega
  · intro g o hg
    rw [Table.get_remove, ite_eq_iff] at hg
    obtain ⟨-, hg⟩ | ⟨-, hg⟩ := hg
    · cases hg
    · exact h.canonical g o hg

lemma step (h : Accounted maxPerIp s) (hmax : 1 ≤ maxPerIp)
    (hstep : SourceAdmission.step maxPerIp s event = some s') : Accounted maxPerIp s' := by
  cases event with
  | acquire guard source =>
    obtain ⟨hnew, hstep⟩ := Option.ite_none_left_eq_some.mp hstep
    have hguard := contains_eq_false.mp (Bool.not_eq_true _ ▸ hnew)
    obtain ⟨counts, ⟨hget, hresult⟩ | ⟨hcounted, hroom, hresult⟩⟩ := h.tryAcquire hmax source
    · rw [hresult, Option.some.injEq] at hstep
      exact hstep ▸ { h with counted := h.counted.congr hget fun _ => rfl }
    · rw [hresult, Option.some.injEq] at hstep
      exact hstep ▸ h.acquired hguard hcounted hroom
  | rebind guard source =>
    obtain ⟨own, hguard, hstep⟩ := Option.bind_eq_some_iff.mp hstep
    obtain ⟨counts, own', moved, hrebind, haccounted, -⟩ := h.tryRebind hguard source
    rw [hrebind] at hstep
    exact Option.some.inj hstep ▸ haccounted
  | drop guard =>
    obtain ⟨own, hguard, hstep⟩ := Option.bind_eq_some_iff.mp hstep
    obtain ⟨counts, hdrop, haccounted⟩ := h.drop hguard
    rw [hdrop] at hstep
    exact Option.some.inj hstep ▸ haccounted

lemma exists_guard (h : Accounted maxPerIp s) {ip : IpAddr} (hcount : s.counts.get ip ≠ none) :
    ∃ guard, s.guards.get guard = some ip := by
  have hpos : 0 < bound s.guards ip := by
    rw [h.counted ip] at hcount
    exact Nat.pos_of_ne_zero fun hzero => hcount (if_pos hzero)
  obtain ⟨guard, own, hguard, hown⟩ := total_pos hpos
  have heq : own = ip := by
    by_contra hne
    rw [if_neg hne] at hown
    exact absurd hown (Nat.lt_irrefl 0)
  exact ⟨guard, heq ▸ hguard⟩

lemma size_le (h : Accounted maxPerIp s) : s.counts.size ≤ s.guards.size := by
  have hkeys : s.counts.keys.length ≤ s.guards.size := by
    refine length_le_size s.counts.nodupKeys fun ip hip => ?_
    obtain ⟨count, hcount⟩ := Table.contains_iff.mp (contains_iff_mem_keys.mpr hip)
    obtain ⟨guard, hguard⟩ := h.exists_guard (hcount ▸ Option.some_ne_none count)
    exact ⟨guard, mem_entries.mpr hguard⟩
  simpa only [Table.size, AList.keys, List.keys, List.length_map] using hkeys

end Accounted

/-- After every interleaving of acquisitions, moves and drops under a limit of at least one: each
source's counter is its number of live guards and within the limit, and no counter is zero; the
table is no larger than the number of guards; a refused acquisition or move changes no counter
and no binding; no operation of a live guard fails; and an address and its mapped form are one
source. -/
theorem sourceAdmission_accounted {events : List Event} (hmax : 1 ≤ maxPerIp)
    (hrun : run (step maxPerIp) {} events = some s) :
    (∀ ip, (s.counts.get ip).getD 0 = bound s.guards ip ∧ bound s.guards ip ≤ maxPerIp ∧
      s.counts.get ip ≠ some 0) ∧
    s.counts.size ≤ s.guards.size ∧
    (∀ source, (tryAcquire maxPerIp s.counts source).2 = none →
      ∀ ip, (tryAcquire maxPerIp s.counts source).1.get ip = s.counts.get ip) ∧
    (∀ guard own source, s.guards.get guard = some own →
      ∃ counts own' moved, tryRebind maxPerIp s.counts own source = some (counts, own', moved) ∧
        (moved = false → own' = own ∧ counts = s.counts)) ∧
    (∀ guard own, s.guards.get guard = some own → ∃ counts, drop s.counts own = some counts) ∧
    ∀ a, s.counts.get (.v6 (toIpv6Mapped a)) = none ∧
      tryAcquire maxPerIp s.counts (.v6 (toIpv6Mapped a)) =
        tryAcquire maxPerIp s.counts (.v4 a) ∧
      ∀ own, tryRebind maxPerIp s.counts own (.v6 (toIpv6Mapped a)) =
        tryRebind maxPerIp s.counts own (.v4 a) := by
  have h : Accounted maxPerIp s :=
    run_preserves (fun _ _ _ h hstep => h.step hmax hstep) (.start maxPerIp) hrun
  refine ⟨fun ip => ⟨h.counted.getD_eq ip, h.le_limit ip, ?_⟩, h.size_le, ?_, ?_, ?_, ?_⟩
  · rw [h.counted ip]
    split_ifs with hzero
    · simp
    · simpa using hzero
  · intro source hnone
    obtain ⟨counts, ⟨hget, hresult⟩ | ⟨-, -, hresult⟩⟩ := h.tryAcquire hmax source
    · rw [hresult]
      exact hget
    · rw [hresult] at hnone
      cases hnone
  · intro guard own source hguard
    obtain ⟨counts, own', moved, hrebind, -, hfailed⟩ := h.tryRebind hguard source
    exact ⟨counts, own', moved, hrebind, hfailed⟩
  · intro guard own hguard
    obtain ⟨counts, hdrop, -⟩ := h.drop hguard
    exact ⟨counts, hdrop⟩
  · refine fun a => ⟨?_, ?_, fun own => ?_⟩
    · by_contra hget
      obtain ⟨guard, hguard⟩ := h.exists_guard hget
      have hcanonical := h.canonical guard _ hguard
      rw [canonicalIp_mapped] at hcanonical
      cases hcanonical
    · simp only [tryAcquire, canonicalIp_mapped]
    · simp only [tryRebind, canonicalIp_mapped]

/-- Two sources with a limit of one: the second guard is refused under the mapped form of the
first one's source, and the first guard can move only when the other source is free again. -/
def migration : List Event :=
  [.acquire 0 (.v4 0x0A000001#32), .acquire 1 (.v6 (toIpv6Mapped 0x0A000001#32)),
    .acquire 2 (.v4 0x0A000002#32), .rebind 0 (.v4 0x0A000002#32), .drop 2,
    .rebind 0 (.v6 (toIpv6Mapped 0x0A000002#32))]

def afterMigration : Admissions := (run (step 1) {} migration).get (by decide +kernel)

theorem sourceAdmission_accounted_migration :
    bound afterMigration.guards (.v4 0x0A000002#32) = 1 ∧
      (afterMigration.counts.get (.v4 0x0A000002#32)).getD 0 = 1 ∧
        afterMigration.counts.size ≤ 1 := by
  have hrun : run (step 1) {} migration = some afterMigration := (Option.some_get _).symm
  have haccounted := sourceAdmission_accounted le_rfl hrun
  have hbound : bound afterMigration.guards (.v4 0x0A000002#32) = 1 := by decide +kernel
  have hguards : afterMigration.guards.size = 1 := by decide +kernel
  exact ⟨hbound, (haccounted.1 _).1.trans hbound, hguards ▸ haccounted.2.1⟩

end SourceAdmission

end MasqueServer
