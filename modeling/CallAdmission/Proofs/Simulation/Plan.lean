import CallAdmission.Proofs.Host
import CallAdmission.Simulation.Plan
import Mathlib.Data.Int.CardIntervalMod

/-!
# CallAdmission.Proofs.Simulation.Plan

What can be told of the calls of a simulation before they are submitted. Options that were read
from arguments are `Valid`: there is a host, and no period is zero. So every call has its host, the
places of the calls that fail are well defined, and no latency is longer than can be waited for.

* `valid_of_read` — options that were read are valid;
* `hostList_perm`, `hostList_sorted` — the hosts, in the order of their names;
* `getElem?_jobs`, `job_eq` — the calls by their numbers;
* `countP_endsPeriod` — how many calls end a period;
* `latency_lt`, `latency_ne_zero` — the latencies.
-/

namespace CallAdmission.Simulation

/-! ## options -/

/-- There is a host, and no period is zero. -/
structure Options.Valid (o : Options) : Prop where
  hosts : o.hosts ≠ 0
  failEvery : ∀ k ∈ o.failEvery, k ≠ 0
  duplexEvery : ∀ k ∈ o.duplexEvery, k ≠ 0

variable {o : Options} {arguments : List String}

theorem ne_zero_of_mem_period {n k : UInt64} (h : k ∈ period n) : k ≠ 0 := by
  unfold period at h
  split at h
  · cases h
  · next hn =>
    cases h
    exact hn

/-- Every flag leaves options valid. -/
theorem Options.Valid.set (h : o.Valid) (flag : Flag) (n : UInt64) : (o.set flag n).Valid := by
  cases flag with
  | hosts =>
    refine ⟨?_, h.failEvery, h.duplexEvery⟩
    show (if n = 0 then 1 else n) ≠ 0
    split
    · decide
    · assumption
  | failEvery => exact ⟨h.hosts, fun _ => ne_zero_of_mem_period, h.duplexEvery⟩
  | duplexEvery => exact ⟨h.hosts, h.failEvery, fun _ => ne_zero_of_mem_period⟩
  | calls | latency | limit => exact ⟨h.hosts, h.failEvery, h.duplexEvery⟩

theorem valid_of_readAll {o' : Options} (ho : o.Valid) (h : o.readAll arguments = .ok o') :
    o'.Valid := by
  induction o, arguments using Options.readAll.induct with
  | case1 o =>
    cases h
    exact ho
  | case2 o s hflag | case3 o s flag hflag => simp [Options.readAll, hflag] at h
  | case4 o s v rest hflag => simp [Options.readAll, hflag] at h
  | case5 o s v rest flag hflag fault hfault => simp [Options.readAll, hflag, hfault] at h
  | case6 o s v rest flag hflag n hn ih =>
    rw [Options.readAll, hflag] at h
    simp only [hn] at h
    exact ih (ho.set flag n) h

/-- Options that were read are valid. -/
theorem valid_of_read (h : Options.read arguments = .ok o) : o.Valid := by
  have hdefault : ({} : Options).Valid := ⟨by decide, by simp, by simp⟩
  exact valid_of_readAll hdefault h

/-! ## hosts -/

/-- Different hosts have different names. -/
theorem hostName_inj {a b : Nat} (h : hostName a = hostName b) : a = b := by
  have hname : a.repr = b.repr := by simpa [hostName] using h
  have hdigits : Nat.toDigits 10 a = Nat.toDigits 10 b := by
    rw [← Nat.toList_repr, hname, Nat.toList_repr]
  have hvalue := congrArg (Nat.ofDigitChars 10 · 0) hdigits
  simpa [Nat.ofDigitChars_toDigits] using hvalue

@[simp] theorem length_hostList (o : Options) : o.hostList.length = o.hosts.toNat := by
  simp [Options.hostList]

theorem hosts_pos (h : o.Valid) : 0 < o.hosts.toNat :=
  Nat.pos_of_ne_zero fun hzero => h.hosts (UInt64.toNat_inj.1 hzero)

theorem hostList_ne_nil (h : o.Valid) : o.hostList ≠ [] := by
  rw [← List.length_pos_iff, length_hostList]
  exact hosts_pos h

/-- There is a host of each rank. -/
theorem exists_host {rank : Nat} (h : rank < o.hosts.toNat) :
    ∃ host, o.hostList[rank]? = some host :=
  ⟨_, List.getElem?_eq_getElem ((length_hostList o).symm ▸ h)⟩

/-- The hosts are those with the first numbers. -/
theorem hostList_perm (o : Options) :
    o.hostList.Perm ((List.range o.hosts.toNat).map hostName) := List.mergeSort_perm _ _

theorem hostList_nodup (o : Options) : o.hostList.Nodup :=
  (hostList_perm o).nodup_iff.2 (List.nodup_range.map fun _ _ => hostName_inj)

/-- The hosts stand in the order of their names. -/
theorem hostList_sorted (o : Options) : o.hostList.Pairwise (·.name < ·.name) := by
  have hsorted := Host.pairwise_mergeSort ((List.range o.hosts.toNat).map hostName)
  refine hsorted.imp₂ (fun a b hle hne => ?_) (hostList_nodup o)
  by_contra hlt
  exact hne (congrArg Host.mk (String.le_antisymm hle (String.not_lt.1 hlt)))

/-! ## calls -/

@[simp] theorem length_jobs (o : Options) : o.jobs.length = o.calls.toNat := by
  simp [Options.jobs]

/-- The calls by their numbers. -/
theorem getElem?_jobs (o : Options) (n : Nat) :
    o.jobs[n]? = if n < o.calls.toNat then some (o.job o.hostList n) else none := by
  by_cases hn : n < o.calls.toNat <;> simp [Options.jobs, hn]

/-- Every call has its host, and is duplex if it ends a period. -/
theorem job_eq {n : Nat} {j : Job} (h : o.Valid) (hj : o.jobs[n]? = some j) :
    o.hostList[n % o.hosts.toNat]? = some j.host ∧ j.duplex = endsPeriod o.duplexEvery n := by
  rw [getElem?_jobs] at hj
  split at hj
  · obtain rfl := Option.some.inj hj
    obtain ⟨host, hhost⟩ := exists_host (Nat.mod_lt n (hosts_pos h))
    exact ⟨by simp [Options.job, hhost], rfl⟩
  · cases hj

/-- The last one of each period counts, as often as the period is over. -/
theorem countP_endsPeriod {k : UInt64} (hk : k ≠ 0) (n : Nat) :
    (List.range n).countP (endsPeriod (some k)) = n / k.toNat := by
  have hpos : 0 < k.toNat := Nat.pos_of_ne_zero fun hzero => hk (UInt64.toNat_inj.1 hzero)
  have hlast : (k.toNat - 1) % k.toNat = k.toNat - 1 := Nat.mod_eq_of_lt (Nat.sub_one_lt_of_lt hpos)
  have hless : ¬ k.toNat - 1 < n % k.toNat := by
    have hmod := Nat.mod_lt n hpos
    omega
  have hcount := Nat.count_modEq_card n hpos (k.toNat - 1)
  rw [hlast, if_neg hless, Nat.add_zero] at hcount
  rw [← hcount, Nat.count]
  apply List.countP_congr
  intro i _
  simp [endsPeriod, Nat.ModEq, hlast]

/-- How many of the calls fail. -/
def failures (o : Options) : Nat := o.failEvery.elim 0 fun k => o.calls.toNat / k.toNat

theorem countP_fails (h : o.Valid) : o.jobs.countP (·.fails) = failures o := by
  rw [Options.jobs, List.countP_map, failures]
  cases hfail : o.failEvery with
  | none =>
    rw [Option.elim_none, List.countP_eq_zero]
    intro n _
    simp [Options.job, hfail, endsPeriod]
  | some k =>
    rw [Option.elim_some, ← countP_endsPeriod (h.failEvery k hfail)]
    apply List.countP_congr
    intro n _
    simp [Options.job, hfail]

/-- No latency lasts for more seconds than a word can hold. -/
theorem latency_lt (o : Options) : ∀ j ∈ o.jobs, j.latency / 1000 < UInt64.size := by
  intro j hj
  obtain ⟨n, -, rfl⟩ := List.mem_map.1 hj
  have hbase : o.latency.toNat < UInt64.size := o.latency.toNat_lt_size
  have hfactor : 1 + n % 3 ≤ 3 := by omega
  have hlatency : (o.job o.hostList n).latency ≤ o.latency.toNat * 3 :=
    Nat.mul_le_mul_left _ hfactor
  omega

/-- No latency is zero if that of every third call is not. -/
theorem latency_ne_zero (h : o.latency ≠ 0) : ∀ j ∈ o.jobs, j.latency ≠ 0 := by
  intro j hj
  obtain ⟨n, -, rfl⟩ := List.mem_map.1 hj
  refine Nat.mul_ne_zero (fun hzero => h (UInt64.toNat_inj.1 hzero)) ?_
  omega

end CallAdmission.Simulation
