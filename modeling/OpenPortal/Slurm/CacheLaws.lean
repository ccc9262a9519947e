import OpenPortal.Slurm.Cache

/-!
# Laws of the slurm cache

Every call to `set_report` that returns `Ok` leaves the report readable, at
most 30 reports for its project, the dates it evicted earlier than every date
it kept, and the other projects as they were.  A call that returns `Err` leaves
the cache as it was (`set_report_law`).  The loop evicts no more than it must:
of `n` cached reports it keeps `min n 29` (`set_report_evicts_minimum`).  It counts
before it looks at the date, so a call that only replaces the report of a date a
full project holds still evicts: the project loses its earliest report and is
left with 29 (`set_report_rewrite_drops_oldest`).  Over any run of writes, every
project keeps at most 30 reports and every cached report is complete: a call
refuses an incomplete report and leaves the cache as it was, and a call that
returns `Ok` adds no report but its own (`Database.Reachable.cache_invariant`).

The eviction loop does not always return.  Thirty calls, each made on the day
of its report, cache thirty dates; a later call made while the clock reads an
earlier day finds no cached date at or before it, and its loop removes nothing
on every pass (`set_report_spins`).  In every reachable state that is the only
way a call with a valid date and a complete report fails to return
(`setReport_spins_iff`).  The witnesses sit at a project holding 30 reports,
reached from the start by thirty calls (`reachable_thirty_days`).
-/

namespace OpenPortal

variable {Date Project Report Account User : Type} [DecidableEq Project]

namespace Database

/-- The dates cached for `project`; none for a project with no reports. -/
def reportDates (cache : Database Date Project Report Account User) (project : Project) :
    List Date :=
  ((cache.reports.lookup project).map fun usage => usage.reports.keys).getD []

theorem reportDates_of_lookup {cache : Database Date Project Report Account User}
    {project : Project} {usage : UsageDatabase Date Report}
    (h : cache.reports.lookup project = some usage) :
    cache.reportDates project = usage.reports.keys := by
  simp [reportDates, h]

theorem exists_lookup_of_reportDates_ne_nil {cache : Database Date Project Report Account User}
    {project : Project} (h : cache.reportDates project ≠ []) :
    ∃ usage, cache.reports.lookup project = some usage ∧
      usage.reports.keys = cache.reportDates project := by
  cases hlookup : cache.reports.lookup project with
  | none => simp [reportDates, hlookup] at h
  | some usage => exact ⟨usage, rfl, (reportDates_of_lookup hlookup).symm⟩

@[simp]
theorem reportDates_default (project : Project) :
    (default : Database Date Project Report Account User).reportDates project = [] := rfl

end Database

/-! ## A call that returns -/

section Call

variable [LinearOrder Date] [ToString Project] [ToString Date] [ToString Report]
  {isComplete : Report → Bool} {fuel : Nat} {today date : Date} {project : Project}
  {report : Report} {cache cache' : Database Date Project Report Account User}

/-- A call that returns `Ok` stores, under its project, reports that hold the
new one and number at most 30. -/
theorem setReport_ok_reports
    (h : cache.setReport isComplete fuel today project date report = some (cache', .ok ())) :
    ∃ usage : UsageDatabase Date Report, cache'.reports = cache.reports.insert project usage ∧
      usage.reports.lookup date = some report ∧ usage.reports.keys.length ≤ 30 := by
  rcases Database.setReport_eq_some h with
    ⟨e, he, -⟩ | ⟨-, -, -, ⟨-, rfl⟩ | ⟨usage, kept, -, hkept, rfl⟩⟩
  · cases he
  · exact ⟨_, rfl, by simp [← AList.insert_empty, AList.lookup_insert],
      by simp [AList.keys_singleton]⟩
  · refine ⟨_, rfl, AList.lookup_insert _, ?_⟩
    have hlen := (evictOldest_eq_some today hkept).1
    have hle := List.length_erase_le date kept.keys
    simp only [AList.keys_insert, List.length_cons]
    omega

/-- A call that returns `Ok` adds no report but its own: every report it leaves
was cached before, or is the new one. -/
theorem getReport_of_setReport
    (h : cache.setReport isComplete fuel today project date report = some (cache', .ok ()))
    {p : Project} {d : Date} {r : Report} (hr : cache'.getReport p d = some r) :
    (p = project ∧ d = date ∧ r = report) ∨ cache.getReport p d = some r := by
  obtain ⟨base, hreports, hbase⟩ : ∃ base : AList (fun _ : Date => Report),
      cache'.reports = cache.reports.insert project ⟨base.insert date report⟩ ∧
      ∀ d r, base.lookup d = some r → cache.getReport project d = some r := by
    rcases Database.setReport_eq_some h with
      ⟨e, he, -⟩ | ⟨-, -, -, ⟨-, rfl⟩ | ⟨usage, kept, husage, hkept, rfl⟩⟩
    · cases he
    · exact ⟨∅, by rw [AList.insert_empty], fun d r hr => by simp at hr⟩
    · exact ⟨kept, rfl, fun d r hr =>
        Database.getReport_eq_some.2 ⟨usage, husage, lookup_of_evictOldest today hkept hr⟩⟩
  obtain ⟨usage, hlookup, hr⟩ := Database.getReport_eq_some.1 hr
  rw [hreports] at hlookup
  rcases eq_or_ne p project with rfl | hp
  · cases (AList.lookup_insert _).symm.trans hlookup
    rcases eq_or_ne d date with rfl | hd
    · cases (AList.lookup_insert _).symm.trans hr
      exact .inl ⟨rfl, rfl, rfl⟩
    · exact .inr (hbase d r (by rwa [AList.lookup_insert_ne hd] at hr))
  · rw [AList.lookup_insert_ne hp] at hlookup
    exact .inr (Database.getReport_eq_some.2 ⟨usage, hlookup, hr⟩)

/-- A call with an incomplete report returns an error and leaves the cache as
it was. -/
theorem setReport_of_incomplete (hincomplete : isComplete report = false) :
    ∃ e, cache.setReport isComplete fuel today project date report = some (cache, .error e) := by
  unfold Database.setReport
  rw [hincomplete, Bool.not_false, if_pos rfl]
  split_ifs <;> exact ⟨_, rfl⟩

/-- What `set_report` leaves behind when it returns `Ok`. -/
theorem set_report_law {result : Except CacheError Unit}
    (h : cache.setReport isComplete fuel today project date report = some (cache', result)) :
    (result = .ok () →
      cache'.getReport project date = some report ∧
      (∃ usage, cache'.reports.lookup project = some usage ∧ usage.reports.keys.length ≤ 30) ∧
      (∀ usage, cache.reports.lookup project = some usage →
        ∃ kept : AList (fun _ : Date => Report),
          kept.entries.Sublist usage.reports.entries ∧
          cache'.reports.lookup project = some ⟨kept.insert date report⟩ ∧
          ∀ e ∈ usage.reports.keys, e ∉ kept.keys → ∀ s ∈ kept.keys, e < s) ∧
      ∀ other, other ≠ project → cache'.reports.lookup other = cache.reports.lookup other) ∧
    (∀ e, result = .error e → cache' = cache) := by
  rcases Database.setReport_eq_some h with ⟨e, rfl, rfl⟩ | ⟨rfl, -, -, hstore⟩
  · exact ⟨(fun h => nomatch h), fun _ _ => rfl⟩
  refine ⟨fun _ => ?_, fun _ h => nomatch h⟩
  obtain ⟨stored, hreports, hdate, hlen⟩ := setReport_ok_reports h
  refine ⟨by simp [Database.getReport, hreports, AList.lookup_insert, hdate],
    ⟨stored, by rw [hreports, AList.lookup_insert], hlen⟩, fun usage hsome => ?_,
    fun other hne => by rw [hreports, AList.lookup_insert_ne hne]⟩
  rcases hstore with ⟨hnone, -⟩ | ⟨usage', kept, hsome', hkept, rfl⟩
  · simp [hnone] at hsome
  · cases hsome.symm.trans hsome'
    obtain ⟨-, hsub, hord⟩ := evictOldest_eq_some today hkept
    exact ⟨kept, hsub, AList.lookup_insert _, hord⟩

set_option maxRecDepth 4000 in
/-- Reports for days 1 to 30, then a report for day 31 cached on day 31: the
loop evicts day 1. -/
theorem set_report_law_full_project :
    let full : UsageDatabase Nat Nat :=
      ⟨(List.range' 1 30).foldl (fun reports d => reports.insert d 0) ∅⟩
    let cache : Database Nat Nat Nat Unit Unit :=
      ⟨none, ∅, ∅, (∅ : AList _).insert 0 full⟩
    ∃ cache', cache.setReport (fun _ => true) 1 31 0 31 7 = some (cache', .ok ()) ∧
      ((.ok () : Except CacheError Unit) = .ok () →
        cache'.getReport 0 31 = some 7 ∧
        (∃ usage, cache'.reports.lookup 0 = some usage ∧ usage.reports.keys.length ≤ 30) ∧
        (∀ usage, cache.reports.lookup 0 = some usage →
          ∃ kept : AList (fun _ : Nat => Nat),
            kept.entries.Sublist usage.reports.entries ∧
            cache'.reports.lookup 0 = some ⟨kept.insert 31 7⟩ ∧
            ∀ e ∈ usage.reports.keys, e ∉ kept.keys → ∀ s ∈ kept.keys, e < s) ∧
        ∀ other, other ≠ 0 → cache'.reports.lookup other = cache.reports.lookup other) ∧
      (∀ e, (.ok () : Except CacheError Unit) = .error e → cache' = cache) := by
  intro full cache
  obtain ⟨cache', h⟩ : ∃ cache',
      cache.setReport (fun _ => true) 1 31 0 31 7 = some (cache', .ok ()) := ⟨_, rfl⟩
  exact ⟨cache', h, set_report_law h⟩

/-- A call that returns `Ok` for a project with `n` reports evicts no more than
it must: it keeps `min n 29` of them, each as it was, then stores the new
report. -/
theorem set_report_evicts_minimum {usage : UsageDatabase Date Report}
    (h : cache.setReport isComplete fuel today project date report = some (cache', .ok ()))
    (husage : cache.reports.lookup project = some usage) :
    ∃ kept : AList (fun _ : Date => Report),
      cache'.reports.lookup project = some ⟨kept.insert date report⟩ ∧
      kept.entries.Sublist usage.reports.entries ∧
      kept.keys.length = min usage.reports.keys.length 29 := by
  rcases Database.setReport_eq_some h with
    ⟨e, he, -⟩ | ⟨-, -, -, ⟨hnone, -⟩ | ⟨usage', kept, hsome, hkept, rfl⟩⟩
  · cases he
  · simp [hnone] at husage
  · cases husage.symm.trans hsome
    obtain ⟨hlen, hsub, -⟩ := evictOldest_eq_some today hkept
    exact ⟨kept, AList.lookup_insert _, hsub, hlen⟩

set_option maxRecDepth 4000 in
/-- Reports for days 1 to 30, then a report for day 31 cached on day 31: 29 of
the 30 are kept. -/
theorem set_report_evicts_minimum_full_project :
    let full : UsageDatabase Nat Nat :=
      ⟨(List.range' 1 30).foldl (fun reports d => reports.insert d 0) ∅⟩
    let cache : Database Nat Nat Nat Unit Unit :=
      ⟨none, ∅, ∅, (∅ : AList _).insert 0 full⟩
    ∃ cache', cache.setReport (fun _ => true) 1 31 0 31 7 = some (cache', .ok ()) ∧
      cache.reports.lookup 0 = some full ∧ full.reports.keys.length = 30 ∧
      ∃ kept : AList (fun _ : Nat => Nat),
        cache'.reports.lookup 0 = some ⟨kept.insert 31 7⟩ ∧
        kept.entries.Sublist full.reports.entries ∧
        kept.keys.length = min full.reports.keys.length 29 := by
  intro full cache
  obtain ⟨cache', h⟩ : ∃ cache',
      cache.setReport (fun _ => true) 1 31 0 31 7 = some (cache', .ok ()) := ⟨_, rfl⟩
  exact ⟨cache', h, rfl, by decide, set_report_evicts_minimum h rfl⟩

/-- Re-caching a date that a full project already holds still runs the eviction
loop.  Unless that date is the project's earliest, the loop drops the earliest
report, and the project is left with 29 reports though no new date came in. -/
theorem set_report_rewrite_drops_oldest {usage : UsageDatabase Date Report} {earlier : Date}
    (h : cache.setReport isComplete fuel today project date report = some (cache', .ok ()))
    (husage : cache.reports.lookup project = some usage) (hfull : usage.reports.keys.length = 30)
    (hcached : date ∈ usage.reports.keys) (hearlier : earlier ∈ usage.reports.keys)
    (hlt : earlier < date) :
    (cache'.reportDates project).length = 29 ∧
      ∃ gone ∈ usage.reports.keys, (∀ d ∈ usage.reports.keys, gone ≤ d) ∧
        ∀ d, d ∈ cache'.reportDates project ↔ d ∈ usage.reports.keys ∧ d ≠ gone := by
  rcases Database.setReport_eq_some h with
    ⟨e, he, -⟩ | ⟨-, -, -, ⟨hnone, -⟩ | ⟨usage', kept, hsome, hkept, rfl⟩⟩
  · cases he
  · simp [hnone] at husage
  cases husage.symm.trans hsome
  obtain ⟨hlen, gone, hgone, hearliest, hkept⟩ := evictOldest_full today hkept hfull
  have hdate : date ∈ kept.keys := (hkept date).2
    ⟨hcached, fun h => absurd (hearliest earlier hearlier) (not_le.2 (h ▸ hlt))⟩
  have hdates : (Database.reportDates { cache with
      reports := cache.reports.insert project ⟨kept.insert date report⟩ } project) =
      date :: kept.keys.erase date := by
    simp [Database.reportDates, AList.lookup_insert, AList.keys_insert]
  refine ⟨?_, gone, hgone, hearliest, fun d => ?_⟩
  · rw [hdates, List.length_cons, List.length_erase_of_mem hdate, hlen]
  rw [hdates, List.mem_cons, kept.keys_nodup.mem_erase_iff, hkept]
  constructor
  · rintro (rfl | ⟨-, hd⟩)
    exacts [(hkept _).1 hdate, hd]
  · intro hd
    by_cases hdd : d = date
    exacts [.inl hdd, .inr ⟨hdd, hd⟩]

set_option maxRecDepth 4000 in
/-- Reports for days 1 to 30, then day 30 cached again on day 30: day 1 is lost. -/
theorem set_report_rewrite_drops_oldest_day_thirty :
    let usage : UsageDatabase Nat Nat :=
      ⟨(List.range' 1 30).foldl (fun reports d => reports.insert d 0) ∅⟩
    let cache : Database Nat Nat Nat Unit Unit := ⟨none, ∅, ∅, (∅ : AList _).insert 0 usage⟩
    ∃ cache', cache.setReport (fun _ => true) 1 30 0 30 1 = some (cache', .ok ()) ∧
      (cache'.reportDates 0).length = 29 ∧
      ∃ gone ∈ usage.reports.keys, (∀ d ∈ usage.reports.keys, gone ≤ d) ∧
        ∀ d, d ∈ cache'.reportDates 0 ↔ d ∈ usage.reports.keys ∧ d ≠ gone := by
  intro usage cache
  obtain ⟨cache', h⟩ : ∃ cache',
      cache.setReport (fun _ => true) 1 30 0 30 1 = some (cache', .ok ()) := ⟨_, rfl⟩
  exact ⟨cache', h, set_report_rewrite_drops_oldest h rfl (by decide) (by decide)
    (show 1 ∈ usage.reports.keys by decide) (by decide)⟩

/-- A call on a date not yet cached for a project with fewer than 30 reports
adds the date without evicting. -/
theorem setReport_fresh (fuel : Nat) (hdate : date ≤ today) (hcomplete : isComplete report = true)
    (hnew : date ∉ cache.reportDates project) (hlen : (cache.reportDates project).length < 30) :
    ∃ cache', cache.setReport isComplete fuel today project date report = some (cache', .ok ()) ∧
      cache'.reportDates project = date :: cache.reportDates project := by
  unfold Database.setReport
  rw [if_neg (not_lt.2 hdate), if_neg (by simp [hcomplete])]
  cases hlookup : cache.reports.lookup project with
  | none =>
    exact ⟨_, rfl,
      by simp [Database.reportDates, hlookup, AList.lookup_insert, AList.keys_singleton]⟩
  | some usage =>
    rw [Database.reportDates_of_lookup hlookup] at hnew hlen ⊢
    refine ⟨_, by simp only [evictOldest_of_lt today fuel hlen, Option.map_some']; rfl, ?_⟩
    simp [Database.reportDates, AList.lookup_insert, AList.keys_insert, List.erase_of_not_mem hnew]

/-- A call with a valid date and a complete report, for a project with 30 or
more reports all after `today`, runs out of every fuel. -/
theorem setReport_eq_none_of_later {usage : UsageDatabase Date Report}
    (hdate : date ≤ today) (hcomplete : isComplete report = true)
    (hlookup : cache.reports.lookup project = some usage)
    (h30 : 30 ≤ usage.reports.keys.length) (hlater : ∀ d ∈ usage.reports.keys, today < d)
    (fuel : Nat) : cache.setReport isComplete fuel today project date report = none := by
  have hearly : usage.reports.keys.countP (· ≤ today) = 0 :=
    List.countP_eq_zero.2 fun d hd => by simpa using hlater d hd
  exact Database.setReport_eq_none.2
    ⟨hdate, hcomplete, usage, hlookup, evictOldest_eq_none today (by omega)⟩

end Call

/-! ## Runs of calls -/

/-- The writes that move the cache's reports: `set_report`, on the day that
`Date::today()` returned at that call, and `clear`. -/
inductive CacheCall (Date Project Report : Type) where
  | setReport (today : Date) (project : Project) (date : Date) (report : Report)
  | clear

section Runs

variable [LinearOrder Date] [ToString Project] [ToString Date] [ToString Report]
  (isComplete : Report → Bool) (accountName : Account → List Char) (userName : User → List Char)

namespace Database

/-- A run of calls from `cache`, each `set_report` with at most `fuel` passes
of its loop; `none` when one of them runs out. -/
def run (fuel : Nat) :
    Database Date Project Report Account User → List (CacheCall Date Project Report) →
      Option (Database Date Project Report Account User)
  | cache, [] => some cache
  | cache, .setReport today project date report :: calls =>
    (cache.setReport isComplete fuel today project date report).bind fun step =>
      run fuel step.1 calls
  | cache, .clear :: calls => run fuel cache.clear calls

/-- The caches the agent can reach from its start by any writes, each
`set_report` made on any day. -/
inductive Reachable : Database Date Project Report Account User → Prop
  | default : Reachable default
  | setCluster {cache} (cluster : List Char) :
    Reachable cache → Reachable (cache.setCluster cluster)
  | addAccount {cache} (account : Account) :
    Reachable cache → Reachable (cache.addAccount accountName account)
  | addUser {cache} (user : User) : Reachable cache → Reachable (cache.addUser userName user)
  | clear {cache} : Reachable cache → Reachable cache.clear
  | setReport {cache cache' fuel today project date report result} : Reachable cache →
    cache.setReport isComplete fuel today project date report = some (cache', result) →
    Reachable cache'

theorem Reachable.run {fuel : Nat} {cache cache' : Database Date Project Report Account User}
    {calls : List (CacheCall Date Project Report)}
    (hreach : Reachable isComplete accountName userName cache)
    (h : cache.run isComplete fuel calls = some cache') :
    Reachable isComplete accountName userName cache' := by
  induction calls generalizing cache with
  | nil => cases h; exact hreach
  | cons call calls ih =>
    cases call with
    | setReport today project date report =>
      obtain ⟨step, hstep, hrun⟩ := Option.bind_eq_some.1 h
      exact ih (hreach.setReport hstep) hrun
    | clear => exact ih hreach.clear h

/-- No project has more than 30 reports. -/
def Bounded (cache : Database Date Project Report Account User) : Prop :=
  ∀ project usage, cache.reports.lookup project = some usage → usage.reports.keys.length ≤ 30

variable {isComplete accountName userName}

theorem Bounded.setReport {fuel : Nat} {today date : Date} {project : Project} {report : Report}
    {cache cache' : Database Date Project Report Account User} {result : Except CacheError Unit}
    (hbounded : cache.Bounded)
    (h : cache.setReport isComplete fuel today project date report = some (cache', result)) :
    cache'.Bounded := by
  rcases setReport_eq_some h with ⟨e, rfl, rfl⟩ | ⟨rfl, -⟩
  · exact hbounded
  obtain ⟨stored, hreports, -, hlen⟩ := setReport_ok_reports h
  intro other usage hlookup
  rw [hreports] at hlookup
  by_cases hother : other = project
  · subst hother
    rw [AList.lookup_insert, Option.some.injEq] at hlookup
    exact hlookup ▸ hlen
  · exact hbounded other usage (by rwa [AList.lookup_insert_ne hother] at hlookup)

theorem Reachable.bounded {cache : Database Date Project Report Account User}
    (hreach : Reachable isComplete accountName userName cache) : cache.Bounded := by
  induction hreach with
  | default => intro _ _ h; cases h
  | setCluster _ _ ih => exact ih
  | addAccount _ _ ih => exact ih
  | addUser _ _ ih => exact ih
  | clear _ ih => exact ih
  | setReport _ hstep ih => exact ih.setReport hstep

omit [LinearOrder Date] [ToString Project] [ToString Date] [ToString Report] in
theorem Bounded.length_reportDates_le {cache : Database Date Project Report Account User}
    (hbounded : cache.Bounded) (project : Project) : (cache.reportDates project).length ≤ 30 := by
  cases hlookup : cache.reports.lookup project with
  | none => simp [reportDates, hlookup]
  | some usage => rw [reportDates_of_lookup hlookup]; exact hbounded project usage hlookup

/-- Every cached report is complete. -/
def ReportsComplete (isComplete : Report → Bool) (cache : Database Date Project Report Account User) :
    Prop :=
  ∀ project date report, cache.getReport project date = some report → isComplete report = true

theorem ReportsComplete.setReport {fuel : Nat} {today date : Date} {project : Project}
    {report : Report} {cache cache' : Database Date Project Report Account User}
    {result : Except CacheError Unit} (hcomplete : cache.ReportsComplete isComplete)
    (h : cache.setReport isComplete fuel today project date report = some (cache', result)) :
    cache'.ReportsComplete isComplete := by
  rcases setReport_eq_some h with ⟨e, -, rfl⟩ | ⟨rfl, -, hreport, -⟩
  · exact hcomplete
  intro p d r hr
  rcases getReport_of_setReport h hr with ⟨-, -, rfl⟩ | hold
  exacts [hreport, hcomplete p d r hold]

theorem Reachable.reportsComplete {cache : Database Date Project Report Account User}
    (hreach : Reachable isComplete accountName userName cache) :
    cache.ReportsComplete isComplete := by
  induction hreach with
  | default => intro _ _ _ h; cases h
  | setCluster _ _ ih => exact ih
  | addAccount _ _ ih => exact ih
  | addUser _ _ ih => exact ih
  | clear _ ih => exact ih
  | setReport _ hstep ih => exact ih.setReport hstep

end Database

variable {isComplete accountName userName}

/-- Calls on fresh dates, each on the day of its report, add their dates one
by one while the project stays under 31 reports. -/
theorem run_setReport_fresh (fuel : Nat) (project : Project) {report : Report}
    (hcomplete : isComplete report = true) (cache : Database Date Project Report Account User)
    {dates : List Date} (hnodup : (dates ++ cache.reportDates project).Nodup)
    (hlen : dates.length + (cache.reportDates project).length ≤ 30) :
    ∃ cache', cache.run isComplete fuel (dates.map fun d => .setReport d project d report) =
        some cache' ∧
      cache'.reportDates project = dates.reverse ++ cache.reportDates project := by
  induction dates generalizing cache with
  | nil => exact ⟨cache, rfl, rfl⟩
  | cons d ds ih =>
    have hd : d ∉ ds ++ cache.reportDates project := (List.nodup_cons.1 hnodup).1
    obtain ⟨cache₁, hstep, hdates₁⟩ := setReport_fresh fuel le_rfl hcomplete
      (fun h => hd (List.mem_append_right _ h)) (by simp only [List.length_cons] at hlen; omega)
    obtain ⟨cache₂, hrun, hdates₂⟩ := ih cache₁ (by rw [hdates₁]; exact List.nodup_middle.2 hnodup)
      (by rw [hdates₁]; simp only [List.length_cons] at hlen ⊢; omega)
    exact ⟨cache₂, by simp only [List.map_cons, Database.run, hstep, Option.some_bind, hrun],
      by rw [hdates₂, hdates₁]; simp⟩

/-- Thirty calls from the start, each made on the day of its report, for days
1 to 30, reach a cache whose project `0` is full. -/
theorem reachable_thirty_days :
    ∃ cache : Database Nat Nat Nat Unit Unit,
      Database.Reachable (fun r : Nat => r != 0) (fun _ : Unit => []) (fun _ : Unit => []) cache ∧
      cache.reportDates 0 = (List.range' 1 30).reverse := by
  obtain ⟨cache, hrun, hdates⟩ : ∃ cache : Database Nat Nat Nat Unit Unit,
      Database.default.run (fun r : Nat => r != 0) 0
          ((List.range' 1 30).map fun d => .setReport d 0 d 1) = some cache ∧
        cache.reportDates 0 = (List.range' 1 30).reverse ++ Database.default.reportDates 0 :=
    run_setReport_fresh 0 0 rfl Database.default (by simpa using List.nodup_range' 1 30) (by simp)
  exact ⟨cache, Database.Reachable.run _ _ _ .default hrun, by simpa using hdates⟩

/-- On every cache the agent can reach by any writes, each `set_report` made on any
day, no project holds more than 30 reports and every cached report is complete.
`set_report` refuses an incomplete report and leaves the cache as it was, and a
call that returns `Ok` adds no report but its own. -/
theorem Database.Reachable.cache_invariant {cache : Database Date Project Report Account User}
    (hreach : Database.Reachable isComplete accountName userName cache) :
    cache.Bounded ∧ cache.ReportsComplete isComplete ∧
      (∀ fuel today project date report, isComplete report = false →
        ∃ e, cache.setReport isComplete fuel today project date report =
          some (cache, .error e)) ∧
      ∀ fuel today project date report cache',
        cache.setReport isComplete fuel today project date report = some (cache', .ok ()) →
        ∀ p d r, cache'.getReport p d = some r →
          (p = project ∧ d = date ∧ r = report) ∨ cache.getReport p d = some r :=
  ⟨hreach.bounded, hreach.reportsComplete,
    fun _ _ _ _ _ hincomplete => setReport_of_incomplete hincomplete,
    fun _ _ _ _ _ _ h _ _ _ => getReport_of_setReport h⟩

/-- The full project of days 1 to 30. -/
theorem cache_invariant_thirty_days :
    ∃ cache : Database Nat Nat Nat Unit Unit,
      Database.Reachable (fun r : Nat => r != 0) (fun _ : Unit => []) (fun _ : Unit => []) cache ∧
      cache.reportDates 0 = (List.range' 1 30).reverse ∧
      cache.Bounded ∧ cache.ReportsComplete (fun r : Nat => r != 0) ∧
      (∀ fuel today project date report, (report != 0) = false →
        ∃ e, cache.setReport (fun r : Nat => r != 0) fuel today project date report =
          some (cache, .error e)) ∧
      ∀ fuel today project date report cache',
        cache.setReport (fun r : Nat => r != 0) fuel today project date report =
          some (cache', .ok ()) →
        ∀ p d r, cache'.getReport p d = some r →
          (p = project ∧ d = date ∧ r = report) ∨ cache.getReport p d = some r := by
  obtain ⟨cache, hreach, hdates⟩ := reachable_thirty_days
  exact ⟨cache, hreach, hdates, Database.Reachable.cache_invariant hreach⟩

/-- Thirty calls, each made on the day of its report, then a call made on a day
before all of them: every pass of its loop removes nothing, and it never
returns. -/
theorem set_report_spins (fuel : Nat) (project : Project) (report : Report) (dates : List Date)
    (today date : Date) (hcomplete : isComplete report = true) (hnodup : dates.Nodup)
    (hlen : dates.length = 30) (hlater : ∀ d ∈ dates, today < d) (hdate : date ≤ today) :
    ∃ (cache : Database Date Project Report Account User) (usage : UsageDatabase Date Report),
      Database.default.run isComplete fuel (dates.map fun d => .setReport d project d report) =
        some cache ∧
      cache.reports.lookup project = some usage ∧ usage.reports.keys.length = 30 ∧
      usage.reports.erase (oldest today usage.reports) = usage.reports ∧
      ∀ fuel', cache.setReport isComplete fuel' today project date report = none := by
  obtain ⟨cache, hrun, hdates⟩ := run_setReport_fresh fuel project hcomplete Database.default
    (by simpa using hnodup) (by simp [hlen])
  rw [Database.reportDates_default, List.append_nil] at hdates
  obtain ⟨usage, hlookup, hkeys⟩ := Database.exists_lookup_of_reportDates_ne_nil
    (List.ne_nil_of_length_pos (by rw [hdates, List.length_reverse]; omega))
  rw [hdates] at hkeys
  have hlater' : ∀ d ∈ usage.reports.keys, today < d := fun d hd =>
    hlater d (by rwa [hkeys, List.mem_reverse] at hd)
  have hlen' : usage.reports.keys.length = 30 := by rw [hkeys, List.length_reverse, hlen]
  exact ⟨cache, usage, hrun, hlookup, hlen', (erase_oldest_of_lt today hlater').2,
    setReport_eq_none_of_later hdate hcomplete hlookup hlen'.ge hlater'⟩

/-- The failing input: reports for days 1 to 30, each cached on its own day,
then a report for day 0 cached while the clock reads day 0. -/
theorem set_report_spins_day_zero :
    (fun _ : Nat => true) 0 = true ∧ (List.range' 1 30).Nodup ∧ (List.range' 1 30).length = 30 ∧
      (∀ d ∈ List.range' 1 30, 0 < d) ∧ 0 ≤ 0 ∧
      ∃ (cache : Database Nat Nat Nat Unit Unit) (usage : UsageDatabase Nat Nat),
        Database.default.run (fun _ => true) 0
            ((List.range' 1 30).map fun d => .setReport d 0 d 0) = some cache ∧
        cache.reports.lookup 0 = some usage ∧ usage.reports.keys.length = 30 ∧
        usage.reports.erase (oldest 0 usage.reports) = usage.reports ∧
        ∀ fuel', cache.setReport (fun _ => true) fuel' 0 0 0 0 = none :=
  ⟨rfl, List.nodup_range' 1 30, List.length_range' 1 1 30, by decide, le_rfl,
    set_report_spins 0 0 0 (List.range' 1 30) 0 0 rfl (List.nodup_range' 1 30)
      (List.length_range' 1 1 30) (by decide) le_rfl⟩

/-- In every reachable state, no project has more than 30 reports, and a call with
a valid date and a complete report never returns exactly when its project has 30
reports, all after `today`. -/
theorem setReport_spins_iff {cache : Database Date Project Report Account User}
    {today date : Date} {project : Project} {report : Report}
    (hreach : Database.Reachable isComplete accountName userName cache) (hdate : date ≤ today)
    (hcomplete : isComplete report = true) :
    (∀ p, (cache.reportDates p).length ≤ 30) ∧
      ((∀ fuel, cache.setReport isComplete fuel today project date report = none) ↔
        (cache.reportDates project).length = 30 ∧
          ∀ d ∈ cache.reportDates project, today < d) := by
  refine ⟨hreach.bounded.length_reportDates_le, fun hnone => ?_, ?_⟩
  · obtain ⟨-, -, usage, hlookup, -⟩ := Database.setReport_eq_none.1 (hnone 0)
    have hspins : ∀ fuel, evictOldest today fuel usage.reports = none := fun fuel => by
      obtain ⟨-, -, usage', hlookup', hnone'⟩ := Database.setReport_eq_none.1 (hnone fuel)
      cases hlookup.symm.trans hlookup'
      exact hnone'
    have hcount := (evictOldest_eq_none_iff today).1 hspins
    have hbound := hreach.bounded project usage hlookup
    have hearly : usage.reports.keys.countP (· ≤ today) = 0 := by omega
    rw [Database.reportDates_of_lookup hlookup]
    exact ⟨by omega, fun d hd => by simpa using List.countP_eq_zero.1 hearly d hd⟩
  · rintro ⟨hlen, hlater⟩ fuel
    have hcached : cache.reportDates project ≠ [] := List.ne_nil_of_length_pos (by omega)
    obtain ⟨usage, hlookup, hkeys⟩ := Database.exists_lookup_of_reportDates_ne_nil hcached
    rw [← hkeys] at hlen hlater
    exact setReport_eq_none_of_later hdate hcomplete hlookup hlen.ge hlater fuel

/-- Reports for days 1 to 30, then a call on day 0: the project is full with
every date after day 0, so both sides hold. -/
theorem setReport_spins_iff_thirty_days :
    ∃ cache : Database Nat Nat Nat Unit Unit,
      Database.Reachable (fun r : Nat => r != 0) (fun _ : Unit => []) (fun _ : Unit => []) cache ∧
      cache.reportDates 0 = (List.range' 1 30).reverse ∧ 0 ≤ 0 ∧ (1 != 0) = true ∧
      ((cache.reportDates 0).length = 30 ∧ ∀ d ∈ cache.reportDates 0, 0 < d) ∧
      (∀ p, (cache.reportDates p).length ≤ 30) ∧
      ((∀ fuel, cache.setReport (fun r : Nat => r != 0) fuel 0 0 0 1 = none) ↔
        (cache.reportDates 0).length = 30 ∧ ∀ d ∈ cache.reportDates 0, 0 < d) := by
  obtain ⟨cache, hreach, hdates⟩ := reachable_thirty_days
  exact ⟨cache, hreach, hdates, le_rfl, rfl, by rw [hdates]; decide,
    setReport_spins_iff hreach le_rfl rfl⟩

end Runs

end OpenPortal
