import Rpsiod.Config.Site
import Rpsiod.Lib.FixedWindow

/-!
# The rate limiter (`rate_limit.c`)

A site has 1024 buckets, and a client uses the bucket that its address gives modulo 1024.  A bucket
belongs to the client that used it last; another client takes it over.

`clientWindow` follows a single client: a window of its own, which is forgotten when another client
takes the bucket over.

* `bucketWindow_run`: every bucket is the window of the client it belongs to.
* `rateLimit_spec`: **the limiter decides by the window of the client**.
-/

namespace Rpsiod

open ListSearch FixedWindow

/-! ### Addresses -/

/-- A part of an address in `inet_pton`: one to three digits up to 255, without leading zeros. -/
def octet (text : Bytes) : Option ℕ :=
  let (n, rest) := readDecimal 0 text
  if text = [] || rest ≠ [] || (text.head? = some 48 && text ≠ [48]) || 255 < n then none else some n

/-- `inet_pton` for `AF_INET`, with `ntohl`. -/
def inetPton (text : Bytes) : Option UInt32 := do
  let (a, text) ← splitFirst 46 text
  let (b, text) ← splitFirst 46 text
  let (c, d) ← splitFirst 46 text
  let a ← octet a
  let b ← octet b
  let c ← octet c
  let d ← octet d
  return UInt32.ofNat (((a * 256 + b) * 256 + c) * 256 + d)

/-- `inet_ntop` for `AF_INET`, with `htonl`. -/
def inetNtop (ip : UInt32) : Bytes :=
  decimal (ip.toNat / 2 ^ 24) ++ 46 :: (decimal (ip.toNat / 2 ^ 16 % 256) ++ 46 ::
    (decimal (ip.toNat / 2 ^ 8 % 256) ++ 46 :: decimal (ip.toNat % 256)))

/-! ### The limiter -/

/-- `RPSIOD_RATE_BUCKETS`. -/
def rateBucketCount : ℕ := 1024

/-- `rpsiod_rate_bucket`. The count is at most the limit of the site, and a time is less than 2^63, so
that nothing overflows. -/
structure RateBucket where
  ip : UInt32 := 0
  windowStart : ℕ := 0
  count : ℕ := 0
  deriving DecidableEq

/-- `rate_buckets`. -/
abbrev RateBuckets := Fin rateBucketCount → RateBucket

/-- The index of the bucket of an address. -/
def rateBucketIndex (ip : UInt32) : Fin rateBucketCount :=
  ⟨ip.toNat % rateBucketCount, Nat.mod_lt _ (by decide)⟩

/-- What `rpsiod_rate_limit_exceeded` gives back. -/
structure RateResult where
  exceeded : Bool
  retryAfter : ℤ := 0
  buckets : RateBuckets

/-- The site limits its clients. -/
def Site.limits (site : Site) : Bool :=
  !(!site.rateLimitEnabled || site.rateLimitRequests = 0 || site.rateLimitWindowSec ≤ 0)

/-- `rpsiod_rate_limit_exceeded` at the time `now`. -/
def rateLimitExceeded (site : Site) (clientIp : Bytes) (now : ℕ) (buckets : RateBuckets) :
    RateResult :=
  if !site.rateLimitEnabled || site.rateLimitRequests = 0 || site.rateLimitWindowSec ≤ 0 then
    { exceeded := false, buckets := buckets }
  else
    match inetPton clientIp with
    | none => { exceeded := false, buckets := buckets }
    | some ip =>
        let idx := rateBucketIndex ip
        let bucket := buckets idx
        if bucket.ip ≠ ip || bucket.windowStart + site.rateLimitWindowSec.toNat ≤ now then
          { exceeded := false
            buckets := Function.update buckets idx ⟨ip, now, 1⟩ }
        else if site.rateLimitRequests.toNat ≤ bucket.count then
          let reset := bucket.windowStart + site.rateLimitWindowSec.toNat
          { exceeded := true
            retryAfter := if now < reset then ((reset - now : ℕ) : ℤ).bmod (2 ^ 32) else 1
            buckets := buckets }
        else
          { exceeded := false
            buckets := Function.update buckets idx { bucket with count := bucket.count + 1 } }

/-- A request: the address of the client, and the time. -/
abbrev RateCall := UInt32 × ℕ

/-- The buckets behind these requests. -/
def rateRun (site : Site) (calls : List RateCall) (buckets : RateBuckets) : RateBuckets :=
  calls.foldl (fun buckets call => (rateLimitExceeded site (inetNtop call.1) call.2 buckets).buckets)
    buckets

/-! ### One client -/

/-- The times of the requests of an address. -/
def ownTimes (ip : UInt32) (calls : List RateCall) : List ℕ :=
  (calls.filter fun call => call.1 = ip).map Prod.snd

/-- The window of an address behind a request. -/
def clientStep (limit span : ℕ) (ip : UInt32) (w : Option Window) (c : RateCall) : Option Window :=
  if c.1 = ip then (call limit span w c.2).2
  else if rateBucketIndex c.1 = rateBucketIndex ip then none
  else w

/-- The window of an address behind these requests: its own calls, forgotten at every call of another
address with the same bucket.  The buckets of a site are zero at first, so the address 0.0.0.0 has a
window then. -/
def clientWindow (limit span : ℕ) (ip : UInt32) (calls : List RateCall) : Option Window :=
  calls.foldl (clientStep limit span ip) (if ip = 0 then some ⟨0, 0⟩ else none)

/-- Which requests of an address are admitted. -/
def ownAdmitted (site : Site) (ip : UInt32) : List RateCall → RateBuckets → List Bool
  | [], _ => []
  | c :: calls, buckets =>
      let r := rateLimitExceeded site (inetNtop c.1) c.2 buckets
      (if c.1 = ip then [!r.exceeded] else []) ++ ownAdmitted site ip calls r.buckets

/-- No other address in these requests has the bucket of this one. -/
def Undisputed (ip : UInt32) (calls : List RateCall) : Prop :=
  ∀ c ∈ calls, c.1 ≠ ip → rateBucketIndex c.1 ≠ rateBucketIndex ip

instance (ip : UInt32) (calls : List RateCall) : Decidable (Undisputed ip calls) :=
  inferInstanceAs (Decidable (∀ c ∈ calls, c.1 ≠ ip → rateBucketIndex c.1 ≠ rateBucketIndex ip))

/-! ### Addresses in text -/

theorem octet_decimal {n : ℕ} (h : n < 256) : octet (decimal n) = some n := by
  have hall : ∀ n < 256, octet (decimal n) = some n := by decide +kernel
  exact hall n h

theorem not_mem_decimal {n : ℕ} (h : n < 256) : 46 ∉ decimal n := by
  have hall : ∀ n < 256, 46 ∉ decimal n := by decide +kernel
  exact hall n h

/-- **Round trip** of an address. -/
theorem inetPton_inetNtop (ip : UInt32) : inetPton (inetNtop ip) = some ip := by
  have hip := ip.toNat_lt
  have hsplit : ∀ n < 256, ∀ rest, splitFirst 46 (decimal n ++ 46 :: rest) =
      some (decimal n, rest) := fun n hn rest =>
    splitFirst_eq_some_iff.mpr ⟨rfl, not_mem_decimal hn⟩
  have ha : ip.toNat / 2 ^ 24 < 256 := by omega
  have hb : ip.toNat / 2 ^ 16 % 256 < 256 := Nat.mod_lt _ (by decide)
  have hc : ip.toNat / 2 ^ 8 % 256 < 256 := Nat.mod_lt _ (by decide)
  have hd : ip.toNat % 256 < 256 := Nat.mod_lt _ (by decide)
  have hsum : ((ip.toNat / 2 ^ 24 * 256 + ip.toNat / 2 ^ 16 % 256) * 256 +
      ip.toNat / 2 ^ 8 % 256) * 256 + ip.toNat % 256 = ip.toNat := by omega
  unfold inetPton inetNtop
  simp only [hsplit _ ha, hsplit _ hb, hsplit _ hc, octet_decimal ha, octet_decimal hb,
    octet_decimal hc, octet_decimal hd, Option.bind_eq_bind, Option.bind_some, Option.pure_def, hsum,
    UInt32.ofNat_toNat]

/-! ### Every bucket is a window -/

/-- The window of an address, in its bucket. -/
def bucketWindow (buckets : RateBuckets) (ip : UInt32) : Option Window :=
  let bucket := buckets (rateBucketIndex ip)
  if bucket.ip = ip then some ⟨bucket.windowStart, bucket.count⟩ else none

/-- The window of every address, when a bucket has been given to one. -/
theorem bucketWindow_update (buckets : RateBuckets) {ip : UInt32} {bucket : RateBucket}
    (h : bucket.ip = ip) (ip' : UInt32) :
    bucketWindow (Function.update buckets (rateBucketIndex ip) bucket) ip' =
      if ip = ip' then some ⟨bucket.windowStart, bucket.count⟩
      else if rateBucketIndex ip = rateBucketIndex ip' then none
      else bucketWindow buckets ip' := by
  unfold bucketWindow
  by_cases hindex : rateBucketIndex ip = rateBucketIndex ip'
  · simp only [← hindex, Function.update_self, h, if_true]
  · have hne : ip ≠ ip' := fun heq => hindex (congrArg rateBucketIndex heq)
    rw [Function.update_of_ne (Ne.symm hindex), if_neg hne, if_neg hindex]

variable {site : Site}

/-- **A request** is decided by the window of its client, and gives the bucket to this window. -/
theorem rateLimitExceeded_eq (hlimits : site.limits = true) (ip : UInt32) (now : ℕ)
    (buckets : RateBuckets) :
    ∃ bucket : RateBucket, bucket.ip = ip ∧
      (rateLimitExceeded site (inetNtop ip) now buckets).buckets =
        Function.update buckets (rateBucketIndex ip) bucket ∧
      call site.rateLimitRequests.toNat site.rateLimitWindowSec.toNat (bucketWindow buckets ip) now =
        (!(rateLimitExceeded site (inetNtop ip) now buckets).exceeded,
          some ⟨bucket.windowStart, bucket.count⟩) := by
  have hguard : (!site.rateLimitEnabled || decide (site.rateLimitRequests = 0) ||
      decide (site.rateLimitWindowSec ≤ 0)) = false := by
    simpa [Site.limits] using hlimits
  have hbucket : bucketWindow buckets ip =
      if (buckets (rateBucketIndex ip)).ip = ip then
        some ⟨(buckets (rateBucketIndex ip)).windowStart, (buckets (rateBucketIndex ip)).count⟩
      else none := rfl
  unfold rateLimitExceeded
  rw [hguard, inetPton_inetNtop, hbucket]
  simp only [Bool.false_eq_true, if_false]
  set bucket := buckets (rateBucketIndex ip) with hdef
  by_cases hip : bucket.ip = ip
  · by_cases hover : bucket.windowStart + site.rateLimitWindowSec.toNat ≤ now
    · -- the window is over
      refine ⟨⟨ip, now, 1⟩, rfl, ?_, ?_⟩
      · simp [hover]
      · simp [call, hip, hover]
    · by_cases hfull : site.rateLimitRequests.toNat ≤ bucket.count
      · refine ⟨bucket, hip, ?_, ?_⟩
        · rw [Function.update_eq_self]
          simp [hip, hover, hfull]
        · simp [call, hip, hover, hfull]
      · refine ⟨{ bucket with count := bucket.count + 1 }, hip, ?_, ?_⟩
        · simp [hip, hover, hfull]
        · simp [call, hip, hover, hfull]
  · -- the bucket belongs to another client
    refine ⟨⟨ip, now, 1⟩, rfl, ?_, ?_⟩
    · simp [hip]
    · simp [call, hip]

/-- The window of every address behind a request. -/
theorem bucketWindow_step (hlimits : site.limits = true) (c : RateCall) (buckets : RateBuckets)
    (ip : UInt32) :
    bucketWindow (rateLimitExceeded site (inetNtop c.1) c.2 buckets).buckets ip =
      clientStep site.rateLimitRequests.toNat site.rateLimitWindowSec.toNat ip
        (bucketWindow buckets ip) c := by
  obtain ⟨bucket, hip, hbuckets, hcall⟩ := rateLimitExceeded_eq hlimits c.1 c.2 buckets
  rw [hbuckets, bucketWindow_update buckets hip]
  unfold clientStep
  by_cases hsame : c.1 = ip
  · rw [if_pos hsame, if_pos hsame, ← hsame, hcall]
  · rw [if_neg hsame, if_neg hsame]

/-- **Every bucket is the window of its client**, in every run. -/
theorem bucketWindow_run (hlimits : site.limits = true) (calls : List RateCall) (ip : UInt32) :
    bucketWindow (rateRun site calls fun _ => {}) ip =
      clientWindow site.rateLimitRequests.toNat site.rateLimitWindowSec.toNat ip calls := by
  have hstart : bucketWindow (fun _ => {}) ip = if ip = 0 then some ⟨0, 0⟩ else none := by
    unfold bucketWindow
    simp only [eq_comm]
  have hgeneral : ∀ buckets : RateBuckets, bucketWindow (rateRun site calls buckets) ip =
      calls.foldl (clientStep site.rateLimitRequests.toNat site.rateLimitWindowSec.toNat ip)
        (bucketWindow buckets ip) := by
    induction calls with
    | nil => exact fun _ => rfl
    | cons c calls ih =>
        intro buckets
        rw [List.foldl_cons, ← bucketWindow_step hlimits]
        exact ih _
  rw [hgeneral, hstart]
  rfl

/-- A client whose bucket nobody else uses has a limiter of its own. -/
theorem ownAdmitted_eq (hlimits : site.limits = true) {ip : UInt32} {calls : List RateCall}
    (h : Undisputed ip calls) (buckets : RateBuckets) :
    ownAdmitted site ip calls buckets =
      decisions site.rateLimitRequests.toNat site.rateLimitWindowSec.toNat (ownTimes ip calls)
        (bucketWindow buckets ip) := by
  induction calls generalizing buckets with
  | nil => rfl
  | cons c calls ih =>
      have hrest : Undisputed ip calls := fun c' hc' => h c' (List.mem_cons_of_mem c hc')
      have hstep := bucketWindow_step hlimits c buckets ip
      rw [ownAdmitted, ih hrest, hstep]
      unfold clientStep ownTimes
      by_cases hsame : c.1 = ip
      · obtain ⟨bucket, -, -, hcall⟩ := rateLimitExceeded_eq hlimits c.1 c.2 buckets
        rw [hsame] at hcall
        rw [if_pos hsame, if_pos hsame, List.filter_cons_of_pos (by simpa using hsame), List.map_cons,
          decisions, hsame, hcall]
        rfl
      · rw [if_neg hsame, if_neg hsame, if_neg (h c List.mem_cons_self hsame),
          List.filter_cons_of_neg (by simpa using hsame)]
        rfl

theorem not_exceeded_of_not_limits (hlimits : site.limits = false) (clientIp : Bytes) (now : ℕ)
    (buckets : RateBuckets) :
    (rateLimitExceeded site clientIp now buckets).exceeded = false := by
  have hguard : (!site.rateLimitEnabled || decide (site.rateLimitRequests = 0) ||
      decide (site.rateLimitWindowSec ≤ 0)) = true := by
    rw [← Bool.not_not (_ || _)]
    exact congrArg Bool.not hlimits
  unfold rateLimitExceeded
  rw [if_pos hguard]

/-- **The limiter decides by the window of the client**: its own calls so far, forgotten at every call
of another address with the same bucket.  As long as nobody else uses its bucket, a client is admitted
as by a limiter of its own, and not more often in a window than the site allows. -/
theorem rateLimit_spec (site : Site) (before : List RateCall) (ip : UInt32) :
    (∀ now, (rateLimitExceeded site (inetNtop ip) now (rateRun site before fun _ => {})).exceeded =
      (site.limits &&
        !(call site.rateLimitRequests.toNat site.rateLimitWindowSec.toNat
          (clientWindow site.rateLimitRequests.toNat site.rateLimitWindowSec.toNat ip before)
          now).1)) ∧
    (site.limits = true → ∀ later, Undisputed ip later →
      ownAdmitted site ip later (rateRun site before fun _ => {}) =
        decisions site.rateLimitRequests.toNat site.rateLimitWindowSec.toNat (ownTimes ip later)
          (clientWindow site.rateLimitRequests.toNat site.rateLimitWindowSec.toNat ip before)) ∧
    (site.limits = true → ∀ now later, Undisputed ip later →
      Opens site.rateLimitWindowSec.toNat
        (clientWindow site.rateLimitRequests.toNat site.rateLimitWindowSec.toNat ip before) now →
      (∀ time ∈ ownTimes ip later, time < now + site.rateLimitWindowSec.toNat) →
      (ownAdmitted site ip ((ip, now) :: later) (rateRun site before fun _ => {})).count true ≤
        site.rateLimitRequests.toNat) := by
  have hown : site.limits = true → ∀ later, Undisputed ip later →
      ownAdmitted site ip later (rateRun site before fun _ => {}) =
        decisions site.rateLimitRequests.toNat site.rateLimitWindowSec.toNat (ownTimes ip later)
          (clientWindow site.rateLimitRequests.toNat site.rateLimitWindowSec.toNat ip before) := by
    intro hlimits later hlater
    rw [ownAdmitted_eq hlimits hlater, bucketWindow_run hlimits]
  refine ⟨fun now => ?_, hown, fun hlimits now later hlater hopens htimes => ?_⟩
  · cases hlimits : site.limits with
    | false => exact not_exceeded_of_not_limits hlimits _ _ _
    | true =>
        obtain ⟨bucket, -, -, hcall⟩ :=
          rateLimitExceeded_eq hlimits ip now (rateRun site before fun _ => {})
        rw [bucketWindow_run hlimits] at hcall
        rw [hcall, Bool.true_and, Bool.not_not]
  · have hundisputed : Undisputed ip ((ip, now) :: later) := by
      intro c hc hne
      rcases List.mem_cons.mp hc with rfl | hc
      · exact absurd rfl hne
      · exact hlater c hc hne
    have hfirst : ownTimes ip ((ip, now) :: later) = now :: ownTimes ip later := by
      unfold ownTimes
      rw [List.filter_cons_of_pos (by simp), List.map_cons]
    have hlimit : 0 < site.rateLimitRequests.toNat := by
      simp only [Site.limits, Bool.not_eq_true', Bool.or_eq_false_iff, decide_eq_false_iff_not]
        at hlimits
      exact Nat.pos_of_ne_zero fun hzero => hlimits.1.2 (UInt32.toNat_inj.mp hzero)
    rw [hown hlimits _ hundisputed, hfirst]
    exact admitted_le hlimit hopens htimes

/-- One request in a minute. -/
def oncePerMinute : Site := { rateLimitEnabled := true, rateLimitRequests := 1 }

/-- The second request of a client whose bucket nobody else uses, after a minute of others. -/
theorem rateLimit_spec_oncePerMinute :
    ownAdmitted oncePerMinute 0x0a000001 [(0x0a000002, 1030), (0x0a000001, 1059)]
        (rateRun oncePerMinute [(0x0a000001, 1000)] fun _ => {}) = [false] :=
  ((rateLimit_spec oncePerMinute [(0x0a000001, 1000)] 0x0a000001).2.1 (by decide)
    [(0x0a000002, 1030), (0x0a000001, 1059)] (by decide)).trans (by decide)

/-- **Two clients with one bucket**: 10.0.0.1 is admitted twice in its minute, since 10.0.4.1 takes its
bucket over in between.  And the window that 0.0.0.0 has at first is not one that it has opened. -/
theorem colliding_clients_share_window :
    (ownAdmitted oncePerMinute 0x0a000001
        [(0x0a000001, 1000), (0x0a000401, 1001), (0x0a000001, 1002)] fun _ => {}) = [true, true] ∧
      decisions 1 60 (ownTimes 0x0a000001
        [(0x0a000001, 1000), (0x0a000401, 1001), (0x0a000001, 1002)]) none = [true, false] ∧
      (ownAdmitted oncePerMinute 0 [(0, 30), (0, 65)] fun _ => {}) = [true, true] ∧
      decisions 1 60 (ownTimes 0 [(0, 30), (0, 65)]) none = [true, false] := by
  decide +kernel

end Rpsiod
