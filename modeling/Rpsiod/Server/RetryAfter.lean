import Rpsiod.Server.RateLimit

/-!
# The value of Retry-After (`rpsiod_rate_limit_exceeded`)

A client that is refused is told how long to wait.  What becomes of its next requests depends on
what the other clients of its bucket do in between.

* `bucketWindow_unadmitted`: without an admitted request of its own, a client keeps its window or
  loses it.
* `retryAfter_honest`: **the value is at most the window; it is enough to wait that long, and
  without other clients in the bucket it is necessary**.
-/

namespace Rpsiod

open FixedWindow

/-- A call of the limiter: the text of the address, and the time. -/
abbrev LimiterCall := Bytes × ℕ

/-- The buckets behind these calls. -/
def limiterRun (site : Site) (calls : List LimiterCall) (buckets : RateBuckets) : RateBuckets :=
  calls.foldl (fun buckets c => (rateLimitExceeded site c.1 c.2 buckets).buckets) buckets

/-- The clock does not go back. -/
def ClockForward (calls : List LimiterCall) : Prop := calls.Pairwise fun a b => a.2 ≤ b.2

instance (calls : List LimiterCall) : Decidable (ClockForward calls) :=
  inferInstanceAs (Decidable (List.Pairwise _ _))

/-- No call for this address is admitted. -/
def NoneAdmitted (site : Site) (ip : UInt32) : List LimiterCall → RateBuckets → Prop
  | [], _ => True
  | c :: calls, buckets =>
      let r := rateLimitExceeded site c.1 c.2 buckets
      (inetPton c.1 = some ip → r.exceeded = true) ∧ NoneAdmitted site ip calls r.buckets

/-- No other address in these calls has the bucket of this one. -/
def OwnBucket (ip : UInt32) (calls : List LimiterCall) : Prop :=
  ∀ c ∈ calls, ∀ other ∈ inetPton c.1, other ≠ ip → rateBucketIndex other ≠ rateBucketIndex ip

variable {site : Site} {ip : UInt32} {buckets : RateBuckets} {calls : List LimiterCall}

/-! ### One call -/

/-- Only the address counts. -/
theorem rateLimitExceeded_text {text : Bytes} (h : inetPton text = some ip) (now : ℕ) :
    rateLimitExceeded site text now buckets =
      rateLimitExceeded site (inetNtop ip) now buckets := by
  unfold rateLimitExceeded
  rw [h, inetPton_inetNtop]

theorem buckets_of_no_address {text : Bytes} (h : inetPton text = none) (now : ℕ) :
    (rateLimitExceeded site text now buckets).buckets = buckets := by
  unfold rateLimitExceeded
  rw [h]
  split_ifs
  · rfl
  · rfl

/-- The window of every address behind a call. -/
theorem bucketWindow_call (hlimits : site.limits = true) (c : LimiterCall) (ip : UInt32) :
    bucketWindow (rateLimitExceeded site c.1 c.2 buckets).buckets ip =
      ((inetPton c.1).map fun other => clientStep site.rateLimitRequests.toNat
        site.rateLimitWindowSec.toNat ip (bucketWindow buckets ip) (other, c.2)).getD
        (bucketWindow buckets ip) := by
  cases haddress : inetPton c.1 with
  | none =>
      rw [buckets_of_no_address haddress]
      rfl
  | some other =>
      rw [rateLimitExceeded_text haddress]
      exact bucketWindow_step hlimits (other, c.2) buckets ip

/-- The decision for an address. -/
theorem exceeded_iff (hlimits : site.limits = true) {text : Bytes} (h : inetPton text = some ip)
    (now : ℕ) :
    (rateLimitExceeded site text now buckets).exceeded = true ↔
      (call site.rateLimitRequests.toNat site.rateLimitWindowSec.toNat (bucketWindow buckets ip)
        now).1 = false := by
  obtain ⟨bucket, -, -, hcall⟩ := rateLimitExceeded_eq hlimits ip now buckets
  rw [rateLimitExceeded_text h, hcall, Bool.not_eq_false']

/-- **A refusal** tells how long the window still goes on. -/
theorem refused_cases {text : Bytes} {now : ℕ}
    (h : (rateLimitExceeded site text now buckets).exceeded = true) :
    site.limits = true ∧ ∃ ip w, inetPton text = some ip ∧ bucketWindow buckets ip = some w ∧
      now < w.start + site.rateLimitWindowSec.toNat ∧ site.rateLimitRequests.toNat ≤ w.count ∧
      (rateLimitExceeded site text now buckets).buckets = buckets ∧
      (rateLimitExceeded site text now buckets).retryAfter =
        ((w.start + site.rateLimitWindowSec.toNat - now : ℕ) : ℤ).bmod (2 ^ 32) := by
  unfold rateLimitExceeded at h ⊢
  by_cases hguard : (!site.rateLimitEnabled || decide (site.rateLimitRequests = 0) ||
      decide (site.rateLimitWindowSec ≤ 0)) = true
  · rw [if_pos hguard] at h
    exact nomatch h
  rw [if_neg hguard] at h ⊢
  have hlimits : site.limits = true := by
    unfold Site.limits
    rw [Bool.eq_false_of_not_eq_true hguard]
    rfl
  cases haddress : inetPton text with
  | none =>
      rw [haddress] at h
      exact nomatch h
  | some ip =>
      rw [haddress] at h
      dsimp only at h ⊢
      by_cases hopens : (decide ((buckets (rateBucketIndex ip)).ip ≠ ip) ||
          decide ((buckets (rateBucketIndex ip)).windowStart + site.rateLimitWindowSec.toNat ≤
            now)) = true
      · rw [if_pos hopens] at h
        exact nomatch h
      rw [if_neg hopens] at h ⊢
      rw [Bool.or_eq_true, not_or, decide_eq_true_iff, decide_eq_true_iff, not_not, not_le]
        at hopens
      by_cases hfull : site.rateLimitRequests.toNat ≤ (buckets (rateBucketIndex ip)).count
      · rw [if_pos hfull, if_pos hopens.2]
        refine ⟨hlimits, ip, ⟨(buckets (rateBucketIndex ip)).windowStart,
          (buckets (rateBucketIndex ip)).count⟩, rfl, ?_, hopens.2, hfull, rfl, ?_⟩
        · unfold bucketWindow
          rw [if_pos hopens.1]
        · dsimp only
      · rw [if_neg hfull] at h
        exact nomatch h

/-! ### Runs -/

/-- **No window starts behind the clock.** -/
theorem start_of_run (hlimits : site.limits = true) {t : ℕ} (hcalls : ∀ c ∈ calls, c.2 ≤ t)
    (hbuckets : ∀ w ∈ bucketWindow buckets ip, w.start ≤ t)
    (hclock : ClockForward calls)
    (hfirst : ∀ c ∈ calls, ∀ w ∈ bucketWindow buckets ip, w.start ≤ c.2) :
    ∀ w ∈ bucketWindow (limiterRun site calls buckets) ip, w.start ≤ t := by
  induction calls generalizing buckets with
  | nil => exact hbuckets
  | cons c calls ih =>
      obtain ⟨hbefore, hrest⟩ := List.pairwise_cons.mp hclock
      have hstep : ∀ w ∈ bucketWindow (rateLimitExceeded site c.1 c.2 buckets).buckets ip,
          w.start ≤ c.2 := by
        have hold := hfirst c List.mem_cons_self
        rw [bucketWindow_call hlimits]
        cases inetPton c.1 with
        | none => exact hold
        | some other =>
            rw [Option.map_some, Option.getD_some]
            unfold clientStep
            split_ifs
            · exact start_of_call hold
            · exact nofun
            · exact hold
      refine ih (fun d hd => hcalls d (List.mem_cons_of_mem c hd)) ?_ hrest ?_
      · exact fun w hw => (hstep w hw).trans (hcalls c List.mem_cons_self)
      · exact fun d hd w hw => (hstep w hw).trans (hbefore d hd)

/-- **Without an admitted request**, a client keeps its window or loses it to another one. -/
theorem bucketWindow_unadmitted (hlimits : site.limits = true)
    (h : NoneAdmitted site ip calls buckets) :
    bucketWindow (limiterRun site calls buckets) ip = none ∨
      bucketWindow (limiterRun site calls buckets) ip = bucketWindow buckets ip := by
  induction calls generalizing buckets with
  | nil => exact Or.inr rfl
  | cons c calls ih =>
      obtain ⟨hown, hrest⟩ := h
      have hstep : bucketWindow (rateLimitExceeded site c.1 c.2 buckets).buckets ip = none ∨
          bucketWindow (rateLimitExceeded site c.1 c.2 buckets).buckets ip =
            bucketWindow buckets ip := by
        rw [bucketWindow_call hlimits]
        cases haddress : inetPton c.1 with
        | none => exact Or.inr rfl
        | some other =>
            rw [Option.map_some, Option.getD_some]
            unfold clientStep
            split_ifs with hsame hindex
            · obtain rfl : other = ip := hsame
              have hrefused := (exceeded_iff hlimits haddress c.2).mp (hown haddress)
              exact Or.inr (call_of_refused hrefused)
            · exact Or.inl rfl
            · exact Or.inr rfl
      rcases ih hrest with hnone | hkept
      · exact Or.inl hnone
      · rcases hstep with hnone | hsame
        · exact Or.inl (hkept.trans hnone)
        · exact Or.inr (hkept.trans hsame)

/-- **A full window stays** while its client has the bucket for itself. -/
theorem bucketWindow_full (hlimits : site.limits = true) {w : Window}
    (hwindow : bucketWindow buckets ip = some w) (hfull : site.rateLimitRequests.toNat ≤ w.count)
    (htimes : ∀ c ∈ calls, c.2 < w.start + site.rateLimitWindowSec.toNat)
    (hown : OwnBucket ip calls) :
    bucketWindow (limiterRun site calls buckets) ip = some w := by
  induction calls generalizing buckets with
  | nil => exact hwindow
  | cons c calls ih =>
      have hstep : bucketWindow (rateLimitExceeded site c.1 c.2 buckets).buckets ip = some w := by
        rw [bucketWindow_call hlimits]
        cases haddress : inetPton c.1 with
        | none => exact hwindow
        | some other =>
            rw [Option.map_some, Option.getD_some]
            unfold clientStep
            split_ifs with hsame hindex
            · have hrefused : (call site.rateLimitRequests.toNat site.rateLimitWindowSec.toNat
                  (bucketWindow buckets ip) c.2).1 = false :=
                call_refused_iff.mpr ⟨w, hwindow, htimes c List.mem_cons_self, hfull⟩
              exact (call_of_refused hrefused).trans hwindow
            · exact absurd hindex (hown c List.mem_cons_self other haddress hsame)
            · exact hwindow
      exact ih hstep (fun d hd => htimes d (List.mem_cons_of_mem c hd))
        fun d hd => hown d (List.mem_cons_of_mem c hd)

/-! ### How long to wait -/

/-- An `int` holds what is left of a window of an `int`. -/
theorem bmod_of_lt {n : ℕ} (h : n < 2 ^ 31) : ((n : ℤ)).bmod (2 ^ 32) = n := by
  rw [Int.bmod_def]
  split_ifs <;> omega

/-- A run behind a refused call. -/
theorem limiterRun_of_refused {c : LimiterCall}
    (h : (rateLimitExceeded site c.1 c.2 buckets).exceeded = true) (later : List LimiterCall) :
    limiterRun site (c :: later) buckets = limiterRun site later buckets := by
  obtain ⟨-, -, -, -, -, -, -, hkept, -⟩ := refused_cases h
  unfold limiterRun
  rw [List.foldl_cons, hkept]

/-- **Retry-After is honest.**  A refused client is told at least 1 and at most the window.  Its first
request behind that time is admitted, whatever the other clients have done, unless one of its own
requests has been admitted since; and as long as no other client has used its bucket, every
request before that time is refused. -/
theorem retryAfter_honest (site : Site) (hint : site.rateLimitWindowSec < 2 ^ 31)
    (before : List LimiterCall) (client : Bytes) (t : ℕ)
    (hclock : ClockForward (before ++ [(client, t)]))
    (hrefused : (rateLimitExceeded site client t
      (limiterRun site before fun _ => {})).exceeded = true) :
    ∃ ip r, inetPton client = some ip ∧
      (rateLimitExceeded site client t (limiterRun site before fun _ => {})).retryAfter = r ∧
      (1 ≤ r ∧ r ≤ site.rateLimitWindowSec) ∧
      ∀ (later : List LimiterCall) (now : ℕ),
        ClockForward ((client, t) :: later ++ [(client, now)]) →
        ((t : ℤ) + r ≤ now → NoneAdmitted site ip later (limiterRun site before fun _ => {}) →
          (rateLimitExceeded site client now (limiterRun site ((client, t) :: later)
            (limiterRun site before fun _ => {}))).exceeded = false) ∧
        ((now : ℤ) < t + r → OwnBucket ip later →
          (rateLimitExceeded site client now (limiterRun site ((client, t) :: later)
            (limiterRun site before fun _ => {}))).exceeded = true) := by
  obtain ⟨hlimits, ip, w, haddress, hwindow, hopen, hfull, hkept, hretry⟩ := refused_cases hrefused
  obtain ⟨hforward, -, hlast⟩ := List.pairwise_append.mp hclock
  -- the window has started by now
  have hstart : w.start ≤ t := by
    have hzero : ∀ v ∈ bucketWindow (fun _ => {}) ip, v.start = 0 := by
      intro v hv
      unfold bucketWindow at hv
      dsimp only at hv
      split_ifs at hv
      · rw [← Option.some.inj hv]
      · exact nomatch hv
    have hbefore : ∀ c ∈ before, c.2 ≤ t := fun c hc => hlast c hc _ (List.mem_singleton_self _)
    refine start_of_run hlimits hbefore ?_ hforward ?_ w hwindow
    · exact fun v hv => (hzero v hv).trans_le (Nat.zero_le t)
    · exact fun c _ v hv => (hzero v hv).trans_le (Nat.zero_le c.2)
  have hspan : (site.rateLimitWindowSec.toNat : ℤ) = site.rateLimitWindowSec := by omega
  have hr : ((w.start + site.rateLimitWindowSec.toNat - t : ℕ) : ℤ).bmod (2 ^ 32) =
      (w.start + site.rateLimitWindowSec.toNat - t : ℕ) := bmod_of_lt (by omega)
  rw [hr] at hretry
  refine ⟨ip, _, haddress, hretry, ⟨by omega, by omega⟩, fun later now hlater => ⟨?_, ?_⟩⟩
  · intro hwait hnone
    rw [limiterRun_of_refused hrefused]
    by_contra hexceeded
    rw [Bool.not_eq_false] at hexceeded
    -- a refusal needs a window that is not over, and there is none but the old one
    have hcall := (exceeded_iff hlimits haddress now).mp hexceeded
    obtain ⟨old, hold, hover, -⟩ := call_refused_iff.mp hcall
    rcases bucketWindow_unadmitted hlimits hnone with hgone | hsame
    · rw [hgone] at hold
      exact nomatch hold
    · rw [hsame, hwindow] at hold
      obtain rfl := Option.some.inj hold
      omega
  · intro hearly hown
    rw [limiterRun_of_refused hrefused, exceeded_iff hlimits haddress]
    have htimes : ∀ c ∈ later, c.2 < w.start + site.rateLimitWindowSec.toNat := by
      intro c hc
      obtain ⟨-, -, hcross⟩ := List.pairwise_append.mp hlater
      have := hcross c (List.mem_cons_of_mem _ hc) _ (List.mem_singleton_self _)
      dsimp only at this
      omega
    rw [bucketWindow_full hlimits hwindow hfull htimes hown]
    exact call_refused_iff.mpr ⟨w, rfl, by omega, hfull⟩

/-- A client that is refused half a minute after its window has opened. -/
theorem retryAfter_honest_oncePerMinute :
    ∃ ip r, inetPton (ascii "10.0.0.1") = some ip ∧
      (rateLimitExceeded oncePerMinute (ascii "10.0.0.1") 1030
        (limiterRun oncePerMinute [(ascii "10.0.0.1", 1000)] fun _ => {})).retryAfter = r ∧
      (1 ≤ r ∧ r ≤ oncePerMinute.rateLimitWindowSec) ∧
      (r ≤ 30 → (rateLimitExceeded oncePerMinute (ascii "10.0.0.1") 1060
        (limiterRun oncePerMinute [(ascii "10.0.0.1", 1030), (ascii "10.0.0.2", 1040)]
          (limiterRun oncePerMinute [(ascii "10.0.0.1", 1000)] fun _ => {}))).exceeded = false) := by
  obtain ⟨ip, r, haddress, hretry, hbounds, hlater⟩ :=
    retryAfter_honest oncePerMinute (by decide) [(ascii "10.0.0.1", 1000)] (ascii "10.0.0.1") 1030
      (by decide) (by decide +kernel)
  have hsecond : inetPton (ascii "10.0.0.2") = some 0x0a000002 := by decide +kernel
  have hfirst : inetPton (ascii "10.0.0.1") = some 0x0a000001 := by decide +kernel
  have hnone : ∀ buckets, NoneAdmitted oncePerMinute ip [(ascii "10.0.0.2", 1040)] buckets := by
    intro buckets
    rw [NoneAdmitted, NoneAdmitted]
    refine ⟨fun hsame => ?_, trivial⟩
    rw [hsecond, ← haddress, hfirst] at hsame
    exact absurd hsame (by decide)
  refine ⟨ip, r, haddress, hretry, hbounds, fun hr => ?_⟩
  exact (hlater [(ascii "10.0.0.2", 1040)] 1060 (by decide)).1 (by omega) (hnone _)

end Rpsiod
