import Mathlib.Data.List.AList

/-!
# The slurm agent's cache

`slurm::cache` keeps one process-wide `Database` behind a lock: the cluster
name, the slurm accounts and users seen so far, and the daily usage reports
of each project, at most one per date.  Here the database is an explicit
state that each function takes, and returns when it writes.  A function whose
`Result` is always `Ok` returns its value bare.  The `HashMap`s are Mathlib's
`AList`s, whose keys are unique by construction; no theorem depends on the
order of their entries.

`Date`, `ProjectIdentifier` and `DailyProjectUsageReport` come from a version of
`templemeads` that is not among the sources.  They stay type parameters: the
spec calls a `Date` a civil date, so it is linearly ordered, and the report's
`is_complete` and the `Display` of all three are parameters too.
`Date::today()` is read once per `set_report` and is an argument, so a clock
that moves back is part of the model.

`set_report` refuses a future date and an incomplete report.  Otherwise, for
a project that has reports, its `while` loop evicts while 30 or more are
cached.  Each pass starts `oldest` at `today`, lowers it to every earlier
cached date, and removes the entry at `oldest`.  When no cached date is at or
before `today`, the pass removes nothing and the loop never ends.  The model
runs the loop on fuel (`evictOldest`), and a `set_report` that runs out of
fuel is `none`.  `evictOldest_eq_none_iff` says exactly when every fuel runs
out: when fewer than `len - 29` cached dates are at or before `today`.
-/

namespace OpenPortal

/-- The `Error::Bug` of `templemeads::Error`, the one error the cache returns. -/
inductive CacheError where
  | bug (message : List Char)
deriving DecidableEq, Repr

/-- `cache::UsageDatabase`: the reports of one project. -/
structure UsageDatabase (Date Report : Type) where
  /-- The reports, at most one per date. -/
  reports : AList (fun _ : Date => Report)

/-- `cache::Database`, without `nodes`, which no modelled function reads. -/
structure Database (Date Project Report Account User : Type) where
  /-- The slurm cluster's name, once set. -/
  cluster : Option (List Char)
  /-- The slurm accounts, by name. -/
  accounts : AList (fun _ : List Char => Account)
  /-- The slurm users, by name. -/
  users : AList (fun _ : List Char => User)
  /-- The usage reports, by project. -/
  reports : AList (fun _ : Project => UsageDatabase Date Report)

variable {Date Project Report Account User : Type}

namespace Database

/-- `Database::default()`, the cache when the agent starts. -/
def default : Database Date Project Report Account User := ⟨none, ∅, ∅, ∅⟩

/-- `get_option_cluster`. -/
def getOptionCluster (cache : Database Date Project Report Account User) : Option (List Char) :=
  cache.cluster

/-- `get_cluster`: the cluster's name, `linux` until one is set. -/
def getCluster (cache : Database Date Project Report Account User) : List Char :=
  cache.cluster.getD "linux".toList

/-- `set_cluster`. -/
def setCluster (cache : Database Date Project Report Account User) (cluster : List Char) :
    Database Date Project Report Account User :=
  { cache with cluster := some cluster }

/-- `get_account`. -/
def getAccount (cache : Database Date Project Report Account User) (name : List Char) :
    Option Account :=
  cache.accounts.lookup name

/-- `add_account`, keyed by `SlurmAccount::name`, which is a parameter. -/
def addAccount (accountName : Account → List Char)
    (cache : Database Date Project Report Account User) (account : Account) :
    Database Date Project Report Account User :=
  { cache with accounts := cache.accounts.insert (accountName account) account }

/-- `add_user`, keyed by `SlurmUser::name`, which is a parameter. -/
def addUser (userName : User → List Char)
    (cache : Database Date Project Report Account User) (user : User) :
    Database Date Project Report Account User :=
  { cache with users := cache.users.insert (userName user) user }

/-- `get_user`. -/
def getUser (cache : Database Date Project Report Account User) (name : List Char) :
    Option User :=
  cache.users.lookup name

/-- `clear`: forgets the accounts and the users, and keeps the reports. -/
def clear (cache : Database Date Project Report Account User) :
    Database Date Project Report Account User :=
  { cache with accounts := ∅, users := ∅ }

end Database

/-! ## The eviction loop -/

section Eviction

variable [LinearOrder Date]

/-- The body of `set_report`'s inner `for` loop: `oldest` lowered to `date` when
`date` is earlier. -/
def lowerTo (oldest date : Date) : Date := if date < oldest then date else oldest

/-- The `for` loop of one eviction pass: `today`, lowered to every cached date
in turn. -/
def oldest (today : Date) (reports : AList (fun _ : Date => Report)) : Date :=
  reports.keys.foldl lowerTo today

/-- `set_report`'s loop `while usage.reports.len() >= 30`, for at most `fuel`
passes; `none` when the fuel runs out before the loop ends. -/
def evictOldest (today : Date) : Nat → AList (fun _ : Date => Report) →
    Option (AList (fun _ : Date => Report))
  | 0, reports => if 30 ≤ reports.keys.length then none else some reports
  | fuel + 1, reports =>
    if 30 ≤ reports.keys.length then evictOldest today fuel (reports.erase (oldest today reports))
    else some reports

theorem lowerTo_eq_min (oldest date : Date) : lowerTo oldest date = min oldest date := by
  by_cases h : date < oldest
  · rw [lowerTo, if_pos h, min_eq_right h.le]
  · rw [lowerTo, if_neg h, min_eq_left (not_lt.1 h)]

theorem foldl_lowerTo_le (l : List Date) (x : Date) : l.foldl lowerTo x ≤ x := by
  induction l generalizing x with
  | nil => exact le_rfl
  | cons d l ih => exact (ih _).trans (lowerTo_eq_min x d ▸ min_le_left x d)

theorem foldl_lowerTo_le_of_mem {l : List Date} {k : Date} (hk : k ∈ l) (x : Date) :
    l.foldl lowerTo x ≤ k := by
  induction l generalizing x with
  | nil => cases hk
  | cons d l ih =>
    rcases List.mem_cons.1 hk with rfl | hk
    · exact (foldl_lowerTo_le l _).trans (lowerTo_eq_min x k ▸ min_le_right x k)
    · exact ih hk _

theorem foldl_lowerTo_eq_or_mem (l : List Date) (x : Date) :
    l.foldl lowerTo x = x ∨ l.foldl lowerTo x ∈ l := by
  induction l generalizing x with
  | nil => exact .inl rfl
  | cons d l ih =>
    rcases ih (lowerTo x d) with h | h
    · rw [List.foldl_cons, h, lowerTo_eq_min]
      rcases le_total x d with h' | h'
      · simp [min_eq_left h']
      · simp [min_eq_right h']
    · exact .inr (List.mem_cons_of_mem _ h)

variable (today : Date) {r kept : AList (fun _ : Date => Report)} {k : Date}

theorem oldest_le_today (r : AList (fun _ : Date => Report)) : oldest today r ≤ today :=
  foldl_lowerTo_le _ _

theorem oldest_le_of_mem (hk : k ∈ r.keys) : oldest today r ≤ k :=
  foldl_lowerTo_le_of_mem hk _

theorem oldest_eq_or_mem (r : AList (fun _ : Date => Report)) :
    oldest today r = today ∨ oldest today r ∈ r.keys :=
  foldl_lowerTo_eq_or_mem _ _

/-- When a cached date is at or before `today`, a pass finds a cached date. -/
theorem oldest_mem_of_le (hk : k ∈ r.keys) (hle : k ≤ today) : oldest today r ∈ r.keys := by
  rcases oldest_eq_or_mem today r with h | h
  · have hk' : k = today := le_antisymm hle (h ▸ oldest_le_of_mem today hk)
    rwa [h, ← hk']
  · exact h

/-- When every cached date is after `today`, a pass looks for `today`, which is
not cached, and removes nothing. -/
theorem erase_oldest_of_lt (hlate : ∀ k ∈ r.keys, today < k) :
    oldest today r = today ∧ r.erase (oldest today r) = r := by
  have hold : oldest today r = today := (oldest_eq_or_mem today r).resolve_right fun h =>
    absurd (oldest_le_today today r) (not_le.2 (hlate _ h))
  refine ⟨hold, AList.ext ?_⟩
  rw [hold]
  exact List.kerase_of_not_mem_keys fun h => lt_irrefl _ (hlate _ h)

/-- When a cached date is at or before `today`, a pass removes one cached date,
one of those at or before `today`. -/
theorem erase_oldest_of_le (hk : k ∈ r.keys) (hle : k ≤ today) :
    (r.erase (oldest today r)).keys.length + 1 = r.keys.length ∧
      (r.erase (oldest today r)).keys.countP (· ≤ today) + 1 =
        r.keys.countP (· ≤ today) := by
  have hmem := oldest_mem_of_le today hk hle
  have hperm := List.perm_cons_erase hmem
  rw [AList.keys_erase]
  refine ⟨?_, ?_⟩
  · rw [hperm.length_eq, List.length_cons]
  · rw [hperm.countP_eq, List.countP_cons_of_pos _ _ (by simpa using oldest_le_today today r)]

theorem evictOldest_of_lt (fuel : Nat) (h : r.keys.length < 30) :
    evictOldest today fuel r = some r := by
  cases fuel <;> simp [evictOldest, not_le.2 h]

theorem evictOldest_zero_of_le (h : 30 ≤ r.keys.length) : evictOldest today 0 r = none := by
  simp [evictOldest, h]

theorem evictOldest_succ_of_le (fuel : Nat) (h : 30 ≤ r.keys.length) :
    evictOldest today (fuel + 1) r = evictOldest today fuel (r.erase (oldest today r)) := by
  simp [evictOldest, h]

/-- A loop that ends keeps 29 reports of 30 or more and all of fewer, each as
it was, and has evicted only dates earlier than every date it kept. -/
theorem evictOldest_eq_some {fuel : Nat} (h : evictOldest today fuel r = some kept) :
    kept.keys.length = min r.keys.length 29 ∧ kept.entries.Sublist r.entries ∧
      ∀ e ∈ r.keys, e ∉ kept.keys → ∀ s ∈ kept.keys, e < s := by
  induction fuel generalizing r with
  | zero =>
    by_cases h30 : 30 ≤ r.keys.length
    · simp [evictOldest_zero_of_le today h30] at h
    · rw [evictOldest_of_lt today 0 (not_le.1 h30), Option.some.injEq] at h
      subst h
      exact ⟨by omega, List.Sublist.refl _, fun e he hne => absurd he hne⟩
  | succ fuel ih =>
    by_cases h30 : 30 ≤ r.keys.length
    · rw [evictOldest_succ_of_le today fuel h30] at h
      obtain ⟨hlen, hsub, hord⟩ := ih h
      refine ⟨?_, hsub.trans (List.kerase_sublist _ _), fun e he hne s hs => ?_⟩
      · rw [hlen, AList.keys_erase, List.length_erase]
        split_ifs <;> omega
      have hs' : s ∈ (r.erase (oldest today r)).keys := (hsub.map Sigma.fst).subset hs
      rw [AList.keys_erase, r.keys_nodup.mem_erase_iff] at hs'
      by_cases heo : e = oldest today r
      · exact lt_of_le_of_ne (heo ▸ oldest_le_of_mem today hs'.2) (heo ▸ hs'.1.symm)
      · exact hord e (by rw [AList.keys_erase]; exact List.mem_erase_of_ne heo |>.2 he) hne s hs
    · rw [evictOldest_of_lt today _ (not_le.1 h30), Option.some.injEq] at h
      subst h
      exact ⟨by omega, List.Sublist.refl _, fun e he hne => absurd he hne⟩

/-- What the loop keeps, it read from the reports it started with. -/
theorem lookup_of_evictOldest {fuel : Nat} {d : Date} {x : Report}
    (h : evictOldest today fuel r = some kept) (hx : kept.lookup d = some x) :
    r.lookup d = some x := by
  rw [← Option.mem_def, AList.mem_lookup_iff] at hx ⊢
  exact (evictOldest_eq_some today h).2.1.subset hx

/-- A loop that ends on 30 reports evicts exactly one, the earliest. -/
theorem evictOldest_full {fuel : Nat} (h : evictOldest today fuel r = some kept)
    (hfull : r.keys.length = 30) :
    kept.keys.length = 29 ∧ ∃ gone ∈ r.keys, (∀ d ∈ r.keys, gone ≤ d) ∧
      ∀ d, d ∈ kept.keys ↔ d ∈ r.keys ∧ d ≠ gone := by
  obtain ⟨hlen, hsub, hord⟩ := evictOldest_eq_some today h
  replace hlen : kept.keys.length = 29 := by rw [hlen, hfull]; rfl
  have hsubk : kept.keys.Sublist r.keys := hsub.map Sigma.fst
  obtain ⟨rest, hperm⟩ := hsubk.exists_perm_append
  obtain ⟨gone, rfl⟩ : ∃ gone, rest = [gone] := by
    have hrest := hperm.length_eq
    rw [List.length_append, hfull, hlen] at hrest
    exact List.length_eq_one.1 (by omega)
  have hmem : ∀ d, d ∈ r.keys ↔ d ∈ kept.keys ∨ d = gone := fun d => by
    simp [hperm.mem_iff]
  have hgone : gone ∉ kept.keys := fun h =>
    List.disjoint_of_nodup_append (hperm.nodup_iff.1 r.keys_nodup) h
      (List.mem_singleton_self gone)
  refine ⟨hlen, gone, (hmem gone).2 (.inr rfl), fun d hd => ?_, fun d => ?_⟩
  · rcases (hmem d).1 hd with hk | rfl
    · exact (hord gone ((hmem gone).2 (.inr rfl)) hgone d hk).le
    · exact le_rfl
  · exact ⟨fun hd => ⟨hsubk.subset hd, fun h => hgone (h ▸ hd)⟩,
      fun ⟨hd, hne⟩ => ((hmem d).1 hd).resolve_right hne⟩

/-- A loop that has as many dates at or before `today` as it has reports over
29 ends, within that many passes. -/
theorem evictOldest_isSome {fuel : Nat}
    (h : r.keys.length < 30 + r.keys.countP (· ≤ today))
    (hfuel : r.keys.countP (· ≤ today) ≤ fuel) :
    ∃ kept, evictOldest today fuel r = some kept := by
  induction fuel generalizing r with
  | zero => exact ⟨r, evictOldest_of_lt today 0 (by omega)⟩
  | succ fuel ih =>
    by_cases h30 : r.keys.length < 30
    · exact ⟨r, evictOldest_of_lt today _ h30⟩
    obtain ⟨k, hk, hle⟩ := List.countP_pos_iff.1 (show 0 < r.keys.countP (· ≤ today) by omega)
    have hpass := erase_oldest_of_le today hk (by simpa using hle)
    rw [evictOldest_succ_of_le today fuel (not_lt.1 h30)]
    exact ih (by omega) (by omega)

/-- A loop with too few dates at or before `today` spins: once those are
evicted, every pass removes nothing. -/
theorem evictOldest_eq_none {fuel : Nat}
    (h : 30 + r.keys.countP (· ≤ today) ≤ r.keys.length) :
    evictOldest today fuel r = none := by
  induction fuel generalizing r with
  | zero => exact evictOldest_zero_of_le today (by omega)
  | succ fuel ih =>
    rw [evictOldest_succ_of_le today fuel (by omega)]
    by_cases hearly : ∃ k ∈ r.keys, k ≤ today
    · obtain ⟨k, hk, hle⟩ := hearly
      have hpass := erase_oldest_of_le today hk hle
      exact ih (by omega)
    · push_neg at hearly
      rw [(erase_oldest_of_lt today hearly).2]
      exact ih h

/-- The loop never ends exactly when fewer than `len - 29` cached dates are at
or before `today`. -/
theorem evictOldest_eq_none_iff :
    (∀ fuel, evictOldest today fuel r = none) ↔
      30 + r.keys.countP (· ≤ today) ≤ r.keys.length := by
  refine ⟨fun hnone => ?_, fun h _ => evictOldest_eq_none today h⟩
  by_contra hlt
  obtain ⟨kept, hkept⟩ := evictOldest_isSome today (not_le.1 hlt) le_rfl
  simp [hnone] at hkept

end Eviction

/-! ## Reports -/

section Reports

variable [LinearOrder Date] [DecidableEq Project]

namespace Database

/-- `get_report`. -/
def getReport (cache : Database Date Project Report Account User) (project : Project)
    (date : Date) : Option Report :=
  match cache.reports.lookup project with
  | some usage => usage.reports.lookup date
  | none => none

theorem getReport_eq_some {cache : Database Date Project Report Account User}
    {project : Project} {date : Date} {report : Report} :
    cache.getReport project date = some report ↔
      ∃ usage, cache.reports.lookup project = some usage ∧
        usage.reports.lookup date = some report := by
  unfold getReport
  cases cache.reports.lookup project <;> simp

variable [ToString Project] [ToString Date] [ToString Report]

/-- `set_report`, on the day `today` that `Date::today()` returned, with at most
`fuel` passes of its eviction loop; `none` when they run out. -/
def setReport (isComplete : Report → Bool) (fuel : Nat) (today : Date)
    (cache : Database Date Project Report Account User) (project : Project) (date : Date)
    (report : Report) :
    Option (Database Date Project Report Account User × Except CacheError Unit) :=
  if today < date then
    some (cache, .error (.bug
      s!"Cannot cache a report for project '{project}' for future date: {date} - {report}".toList))
  else if !isComplete report then
    some (cache, .error (.bug
      s!"Cannot cache an incomplete report for project '{project}' for date: {date} - {report}".toList))
  else
    match cache.reports.lookup project with
    | some usage =>
      (evictOldest today fuel usage.reports).map fun reports =>
        ({ cache with reports := cache.reports.insert project ⟨reports.insert date report⟩ },
          .ok ())
    | none =>
      some ({ cache with reports := cache.reports.insert project ⟨AList.singleton date report⟩ },
        .ok ())

variable {isComplete : Report → Bool} {fuel : Nat} {today date : Date} {project : Project}
  {report : Report} {cache cache' : Database Date Project Report Account User}
  {result : Except CacheError Unit}

/-- What a call to `set_report` that returns can do: refuse, leaving the cache
as it was, or store the report, after evicting from a project that has
reports. -/
theorem setReport_eq_some
    (h : cache.setReport isComplete fuel today project date report = some (cache', result)) :
    (∃ e, result = .error e ∧ cache' = cache) ∨
      result = .ok () ∧ date ≤ today ∧ isComplete report = true ∧
        ((cache.reports.lookup project = none ∧
            cache' = { cache with
              reports := cache.reports.insert project ⟨AList.singleton date report⟩ }) ∨
          ∃ usage kept, cache.reports.lookup project = some usage ∧
            evictOldest today fuel usage.reports = some kept ∧
            cache' = { cache with
              reports := cache.reports.insert project ⟨kept.insert date report⟩ }) := by
  unfold setReport at h
  split_ifs at h with hfuture hcomplete
  · cases h; exact .inl ⟨_, rfl, rfl⟩
  · cases h; exact .inl ⟨_, rfl, rfl⟩
  · have hc : isComplete report = true := by simpa using hcomplete
    cases hlookup : cache.reports.lookup project with
    | none =>
      simp only [hlookup, Option.some.injEq] at h
      cases h
      exact .inr ⟨rfl, not_lt.1 hfuture, hc, .inl ⟨rfl, rfl⟩⟩
    | some usage =>
      simp only [hlookup, Option.map_eq_some'] at h
      obtain ⟨kept, hkept, hstep⟩ := h
      cases hstep
      exact .inr ⟨rfl, not_lt.1 hfuture, hc, .inr ⟨usage, kept, rfl, hkept, rfl⟩⟩

/-- A call to `set_report` runs out of fuel only in the eviction loop. -/
theorem setReport_eq_none :
    cache.setReport isComplete fuel today project date report = none ↔
      date ≤ today ∧ isComplete report = true ∧
        ∃ usage, cache.reports.lookup project = some usage ∧
          evictOldest today fuel usage.reports = none := by
  unfold setReport
  split_ifs with hfuture hcomplete
  · simp [hfuture]
  · simp_all
  · cases hlookup : cache.reports.lookup project <;> simp_all

end Database

end Reports

end OpenPortal
