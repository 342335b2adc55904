/-
What the constructors of `IdempotencyService`, `OutboxPublisherWorker`, `RabbitMqPublisher` and
`PaymentServiceBootstrap` read from the environment, and whether what they accept can be used: as a `Date`,
as the delay of a timer, as an `int4`.
-/
import PaymentOrchestration.Lib.Numeric
import PaymentOrchestration.Worker
import PaymentOrchestration.System
import Mathlib.Data.Rat.Floor
import Mathlib.Tactic.Linarith

namespace PaymentOrchestration

open Lib

abbrev ProcessEnv := String → Option String

/-! ## The checks -/

/-- `parsePositiveInteger`, which three of the classes have. -/
def positiveInteger (value : Option String) (name : String) (defaultValue : { n : Nat // 0 < n }) :
    Except String { n : Nat // 0 < n } :=
  match value with
  | none => .ok defaultValue
  | some text =>
    match Numeric.ofText text with
    | .finite q =>
      if h : q.den = 1 ∧ 0 < q.num then .ok ⟨q.num.toNat, by omega⟩
        else .error s!"{name} must be a positive finite integer"
    | .nan | .infinite _ => .error s!"{name} must be a positive finite integer"

/-- `parsePositiveNumber`. -/
def IdempotencyService.parsePositiveNumber (value : Option String) (fallback : { q : Rat // 0 < q }) (name : String) :
    Except String { q : Rat // 0 < q } :=
  match value with
  | none => .ok fallback
  | some text =>
    match Numeric.ofText text with
    | .finite q => if h : 0 < q then .ok ⟨q, h⟩ else .error s!"{name} must be a positive number"
    | .nan | .infinite _ => .error s!"{name} must be a positive number"

def OutboxPublisherWorker.parsePositiveInteger := positiveInteger
def RabbitMqPublisher.parsePositiveInteger := positiveInteger
def PaymentServiceBootstrap.parsePositiveInteger := positiveInteger

/-! ## The constructors -/

/-- The durations of `IdempotencyService`; the rest of its configuration is not read from the environment. -/
def IdempotencyService.construct (cfg : Config) (env : ProcessEnv) : Except String Config := do
  let processingLeaseMs ← parsePositiveNumber (env "IDEMPOTENCY_PROCESSING_LEASE_MS") ⟨60000, by norm_num⟩
    "IDEMPOTENCY_PROCESSING_LEASE_MS"
  let completedTtlMs ← parsePositiveNumber (env "IDEMPOTENCY_COMPLETED_TTL_MS") ⟨86400000, by norm_num⟩
    "IDEMPOTENCY_COMPLETED_TTL_MS"
  let failedTtlMs ← parsePositiveNumber (env "IDEMPOTENCY_FAILED_TTL_MS") ⟨3600000, by norm_num⟩
    "IDEMPOTENCY_FAILED_TTL_MS"
  return { cfg with
    processingLeaseMs := processingLeaseMs
    completedTtlMs := completedTtlMs
    failedTtlMs := failedTtlMs
    processingLeaseMs_pos := processingLeaseMs.2
    completedTtlMs_pos := completedTtlMs.2
    failedTtlMs_pos := failedTtlMs.2 }

/-- `WorkerConfig` with the interval of the polling loop. -/
structure OutboxPublisherWorker.Settings extends OutboxPublisherWorker.WorkerConfig where
  pollIntervalMs : Nat
  pollIntervalMs_pos : 0 < pollIntervalMs

def OutboxPublisherWorker.construct (env : ProcessEnv) : Except String Settings := do
  let pollIntervalMs ← parsePositiveInteger (env "OUTBOX_POLL_INTERVAL_MS") "OUTBOX_POLL_INTERVAL_MS" ⟨1000, by decide⟩
  let batchSize ← parsePositiveInteger (env "OUTBOX_BATCH_SIZE") "OUTBOX_BATCH_SIZE" ⟨50, by decide⟩
  let maxAttempts ← parsePositiveInteger (env "OUTBOX_MAX_ATTEMPTS") "OUTBOX_MAX_ATTEMPTS" ⟨10, by decide⟩
  let retryBaseDelayMs ← parsePositiveInteger (env "OUTBOX_RETRY_BASE_DELAY_MS") "OUTBOX_RETRY_BASE_DELAY_MS"
    ⟨1000, by decide⟩
  let retryMaxDelayMs ← parsePositiveInteger (env "OUTBOX_RETRY_MAX_DELAY_MS") "OUTBOX_RETRY_MAX_DELAY_MS"
    ⟨60000, by decide⟩
  let _ ← parsePositiveInteger (env "OUTBOX_SHUTDOWN_GRACE_MS") "OUTBOX_SHUTDOWN_GRACE_MS" ⟨30000, by decide⟩
  return {
    pollIntervalMs := pollIntervalMs
    batchSize := batchSize
    maxAttempts := maxAttempts
    retryBaseDelayMs := retryBaseDelayMs
    retryMaxDelayMs := retryMaxDelayMs
    pollIntervalMs_pos := pollIntervalMs.2
    batchSize_pos := batchSize.2
    maxAttempts_pos := maxAttempts.2
    retryBaseDelayMs_pos := retryBaseDelayMs.2
    retryMaxDelayMs_pos := retryMaxDelayMs.2 }

/-- `confirmTimeoutMs`. -/
def RabbitMqPublisher.construct (env : ProcessEnv) : Except String { n : Nat // 0 < n } :=
  parsePositiveInteger (env "RABBITMQ_PUBLISH_CONFIRM_TIMEOUT_MS") "RABBITMQ_PUBLISH_CONFIRM_TIMEOUT_MS"
    ⟨10000, by decide⟩

/-- `shutdownGraceMs`. -/
def PaymentServiceBootstrap.construct (env : ProcessEnv) : Except String { n : Nat // 0 < n } :=
  parsePositiveInteger (env "OUTBOX_SHUTDOWN_GRACE_MS") "OUTBOX_SHUTDOWN_GRACE_MS" ⟨30000, by decide⟩

/-- What the four constructors make of an environment. -/
structure Configured where
  service : Config
  worker : OutboxPublisherWorker.Settings
  confirmTimeoutMs : { n : Nat // 0 < n }
  shutdownGraceMs : { n : Nat // 0 < n }

def configure (cfg : Config) (env : ProcessEnv) : Except String Configured := do
  let service ← IdempotencyService.construct cfg env
  let worker ← OutboxPublisherWorker.construct env
  let confirmTimeoutMs ← RabbitMqPublisher.construct env
  let shutdownGraceMs ← PaymentServiceBootstrap.construct env
  return ⟨service, worker, confirmTimeoutMs, shutdownGraceMs⟩

/-! ## What can be used -/

/-- The greatest absolute value of a `Date`, in milliseconds. -/
def maxDateMs : Int := 8640000000000000

/-- The clocks the service may see lie within this of the epoch. -/
def maxClockMs : Int := 10000000000000

/-- The greatest delay of a timer, which is also the greatest `int4`. -/
def maxInt32 : Nat := 2147483647

/-- A valid `Date` strictly after `now`. -/
def After (now : Millis) (date : Option Millis) : Prop := ∃ t, date = some t ∧ now < t ∧ |t| ≤ maxDateMs

/-- A delay that `setTimeout` waits for. -/
def IsDelay (ms : Nat) : Prop := 1 ≤ ms ∧ ms ≤ maxInt32

/-- Every use of a configured value is in the range of what uses it. -/
structure Usable (c : Configured) : Prop where
  processingLease : ∀ now : Millis, |now| ≤ maxClockMs →
    After now (IdempotencyService.buildExpiresAt c.service.processingLeaseMs now)
  completedTtl : ∀ now : Millis, |now| ≤ maxClockMs →
    After now (IdempotencyService.buildExpiresAt c.service.completedTtlMs now)
  failedTtl : ∀ now : Millis, |now| ≤ maxClockMs →
    After now (IdempotencyService.buildExpiresAt c.service.failedTtlMs now)
  nextRetryAt : ∀ (now : Millis) (event : OutboxEventRecord) (error : String), |now| ≤ maxClockMs →
    After now (OutboxPublisherWorker.publishFailed c.worker.toWorkerConfig now event error).nextRetryAt
  backoff : ∀ attempts, min c.worker.retryBaseDelayMs c.worker.retryMaxDelayMs ≤
      OutboxPublisherWorker.retryDelayFor c.worker.toWorkerConfig attempts ∧
    OutboxPublisherWorker.retryDelayFor c.worker.toWorkerConfig attempts ≤ c.worker.retryMaxDelayMs
  backoff_mono : Monotone (OutboxPublisherWorker.retryDelayFor c.worker.toWorkerConfig)
  pollInterval : IsDelay c.worker.pollIntervalMs
  confirmTimeout : IsDelay c.confirmTimeoutMs
  shutdownGrace : IsDelay c.shutdownGraceMs
  maxAttempts : c.worker.maxAttempts ≤ maxInt32

/-! ## Which environments are usable -/

/-- The number an environment gives a variable. -/
def ProcessEnv.number (env : ProcessEnv) (name : String) (defaultValue : Rat) : Numeric :=
  (env name).elim (.finite defaultValue) Numeric.ofText

/-- The number is finite and at most `hi`. -/
def AtMost (hi : Rat) (x : Numeric) : Prop := ∃ q, x = .finite q ∧ q ≤ hi

/-- A duration of at least a millisecond, and at most what every clock reaches a `Date` with. -/
def IsDuration (x : Numeric) : Prop := ∃ q, x = .finite q ∧ 1 ≤ q ∧ q ≤ maxDateMs - maxClockMs

/-- The upper limits that the constructors do not check, and the lower one of the durations. -/
structure InRange (env : ProcessEnv) : Prop where
  processingLease : IsDuration (env.number "IDEMPOTENCY_PROCESSING_LEASE_MS" 60000)
  completedTtl : IsDuration (env.number "IDEMPOTENCY_COMPLETED_TTL_MS" 86400000)
  failedTtl : IsDuration (env.number "IDEMPOTENCY_FAILED_TTL_MS" 3600000)
  backoff : ∃ base max, env.number "OUTBOX_RETRY_BASE_DELAY_MS" 1000 = .finite base ∧
    env.number "OUTBOX_RETRY_MAX_DELAY_MS" 60000 = .finite max ∧ min max (base * 2 ^ 52) ≤ maxDateMs - maxClockMs
  pollInterval : AtMost maxInt32 (env.number "OUTBOX_POLL_INTERVAL_MS" 1000)
  confirmTimeout : AtMost maxInt32 (env.number "RABBITMQ_PUBLISH_CONFIRM_TIMEOUT_MS" 10000)
  shutdownGrace : AtMost maxInt32 (env.number "OUTBOX_SHUTDOWN_GRACE_MS" 30000)
  maxAttempts : AtMost maxInt32 (env.number "OUTBOX_MAX_ATTEMPTS" 10)

section Dates

variable {now : Int} {v d : Rat}

/-- What `newDate` keeps of a value: its integral part, towards zero. -/
def trunc (v : Rat) : Int := v.num.tdiv v.den

theorem trunc_of_nonneg (h : 0 ≤ v) : trunc v = ⌊v⌋ := by
  have hnum : 0 ≤ v.num := Rat.num_nonneg.2 h
  rw [trunc, Int.tdiv_eq_ediv_of_nonneg hnum, Rat.floor_def']

theorem trunc_of_nonpos (h : v ≤ 0) : trunc v = ⌈v⌉ := by
  have hneg := trunc_of_nonneg (v := -v) (by linarith)
  rw [trunc, Rat.num_neg_eq_neg_num, Rat.den_neg_eq_den, Int.neg_tdiv] at hneg
  have hceil : -trunc v = ⌊-v⌋ := hneg
  rw [Int.floor_neg] at hceil
  omega

/-- An integer that is at least one below a value is below its integral part. -/
theorem lt_trunc (h : now + 1 ≤ v) : now < trunc v := by
  rcases le_total 0 v with h0 | h0
  · rw [trunc_of_nonneg h0]
    have : now + 1 ≤ ⌊v⌋ := Int.le_floor.2 (by push_cast; exact h)
    omega
  · rw [trunc_of_nonpos h0]
    have hle : (now : Rat) + 1 ≤ ⌈v⌉ := h.trans (Int.le_ceil v)
    have : now + 1 ≤ ⌈v⌉ := by exact_mod_cast hle
    omega

theorem abs_trunc_le {n : Int} (h1 : -(n : Rat) ≤ v) (h2 : v ≤ n) : |trunc v| ≤ n := by
  rw [abs_le]
  rcases le_total 0 v with h0 | h0
  · rw [trunc_of_nonneg h0]
    have hn : (⌊v⌋ : Rat) ≤ n := (Int.floor_le v).trans h2
    have hf : ⌊v⌋ ≤ n := by exact_mod_cast hn
    have hp : 0 ≤ ⌊v⌋ := Int.floor_nonneg.2 h0
    omega
  · rw [trunc_of_nonpos h0]
    have hn : -(n : Rat) ≤ ⌈v⌉ := h1.trans (Int.le_ceil v)
    have hf : -n ≤ ⌈v⌉ := by exact_mod_cast hn
    have hp : ⌈v⌉ ≤ 0 := Int.ceil_le.2 (by exact_mod_cast h0)
    omega

theorem newDate_eq_some {t : Millis} :
    IdempotencyService.newDate v = some t ↔ (-(maxDateMs : Rat) ≤ v ∧ v ≤ maxDateMs) ∧ trunc v = t := by
  have hmax : (maxDateMs : Rat) = 8640000000000000 := by norm_num [maxDateMs]
  unfold IdempotencyService.newDate
  rw [hmax, Option.ite_none_right_eq_some, Option.some.injEq]
  rfl

/-- The clocks reach a valid later `Date` with a duration exactly if it is in range. -/
theorem after_iff (hd : 0 < d) :
    (∀ now : Millis, |now| ≤ maxClockMs → After now (IdempotencyService.newDate (now + d))) ↔
    1 ≤ d ∧ d ≤ maxDateMs - maxClockMs := by
  constructor
  · intro h
    refine ⟨?_, ?_⟩
    · -- at the epoch, less than a millisecond is cut off
      obtain ⟨t, ht, hlt, -⟩ := h 0 (by decide)
      obtain ⟨-, rfl⟩ := newDate_eq_some.1 ht
      rw [Int.cast_zero, zero_add, trunc_of_nonneg hd.le] at hlt
      have : (1 : Int) ≤ ⌊d⌋ := hlt
      exact_mod_cast Int.le_floor.1 this
    · obtain ⟨t, ht, -, -⟩ := h maxClockMs (by decide)
      have := (newDate_eq_some.1 ht).1.2
      linarith
  · rintro ⟨h1, h2⟩ now hnow
    rw [abs_le] at hnow
    have hlo : -(maxClockMs : Rat) ≤ now := by exact_mod_cast hnow.1
    have hhi : (now : Rat) ≤ maxClockMs := by exact_mod_cast hnow.2
    have hmax : (maxClockMs : Rat) ≤ maxDateMs := by norm_num [maxClockMs, maxDateMs]
    have hle : now + d ≤ (maxDateMs : Rat) := by linarith
    have hge : -(maxDateMs : Rat) ≤ now + d := by linarith
    exact ⟨_, newDate_eq_some.2 ⟨⟨hge, hle⟩, rfl⟩, lt_trunc (by linarith), abs_trunc_le hge hle⟩

end Dates

/-! ## The backoff -/

section Backoff

open OutboxPublisherWorker

variable (w : WorkerConfig)

theorem retryDelayFor_mono : Monotone (retryDelayFor w) := by
  intro a b hab
  have hpow : 2 ^ min a 52 ≤ 2 ^ min b 52 := Nat.pow_le_pow_right (by decide) (by omega)
  exact min_le_min_left _ (Nat.mul_le_mul_left _ hpow)

theorem retryDelayFor_bounds (attempts : Nat) : min w.retryBaseDelayMs w.retryMaxDelayMs ≤ retryDelayFor w attempts ∧
    retryDelayFor w attempts ≤ w.retryMaxDelayMs := by
  have hbase : w.retryBaseDelayMs ≤ w.retryBaseDelayMs * 2 ^ min attempts 52 :=
    Nat.le_mul_of_pos_right _ (Nat.two_pow_pos _)
  refine ⟨?_, min_le_left _ _⟩
  show _ ≤ min _ _
  omega

/-- The longest backoff is that of 52 attempts. -/
theorem retryDelayFor_le (attempts : Nat) :
    retryDelayFor w attempts ≤ min w.retryMaxDelayMs (w.retryBaseDelayMs * 2 ^ 52) := by
  have hpow : 2 ^ min attempts 52 ≤ 2 ^ 52 := Nat.pow_le_pow_right (by decide) (by omega)
  exact min_le_min_left _ (Nat.mul_le_mul_left _ hpow)

theorem retryDelayFor_pos (attempts : Nat) : 0 < retryDelayFor w attempts := by
  have h := (retryDelayFor_bounds w attempts).1
  have hb := w.retryBaseDelayMs_pos
  have hm := w.retryMaxDelayMs_pos
  omega

end Backoff

/-! ## What the checks accept -/

section Accepted

variable {env : ProcessEnv} {cfg : Config} {c : Configured}

theorem positiveInteger_ok {name : String} {defaultValue n : { n : Nat // 0 < n }}
    (h : positiveInteger (env name) name defaultValue = .ok n) :
    env.number name ((defaultValue : Nat) : Rat) = .finite ((n : Nat) : Rat) := by
  unfold positiveInteger at h
  unfold ProcessEnv.number
  split at h
  · rename_i hnone
    cases h
    rw [hnone]
    rfl
  · rename_i text hsome
    rw [hsome]
    show Numeric.ofText text = _
    split at h
    · rename_i q hq
      split at h
      · rename_i hint
        cases h
        rw [hq]
        have hnum : ((q.num.toNat : Int) : Rat) = q.num := by rw [Int.toNat_of_nonneg hint.2.le]
        have hval : q = ((q.num.toNat : Nat) : Rat) := by
          rw [← Int.cast_natCast, hnum]
          exact (Rat.den_eq_one_iff q).1 hint.1 |>.symm
        exact congrArg Numeric.finite hval
      · cases h
    · cases h
    · cases h

theorem parsePositiveNumber_ok {name : String} {fallback q : { q : Rat // 0 < q }}
    (h : IdempotencyService.parsePositiveNumber (env name) fallback name = .ok q) :
    env.number name fallback = .finite q := by
  unfold IdempotencyService.parsePositiveNumber at h
  unfold ProcessEnv.number
  split at h
  · rename_i hnone
    cases h
    rw [hnone]
    rfl
  · rename_i text hsome
    rw [hsome]
    show Numeric.ofText text = _
    split at h
    · rename_i q' hq
      split at h
      · cases h
        exact hq
      · cases h
    · cases h
    · cases h

/-- The numbers of an accepted environment are the configured values. -/
structure Reads (env : ProcessEnv) (c : Configured) : Prop where
  processingLease : env.number "IDEMPOTENCY_PROCESSING_LEASE_MS" 60000 = .finite c.service.processingLeaseMs
  completedTtl : env.number "IDEMPOTENCY_COMPLETED_TTL_MS" 86400000 = .finite c.service.completedTtlMs
  failedTtl : env.number "IDEMPOTENCY_FAILED_TTL_MS" 3600000 = .finite c.service.failedTtlMs
  retryBase : env.number "OUTBOX_RETRY_BASE_DELAY_MS" 1000 = .finite (c.worker.retryBaseDelayMs : Nat)
  retryMax : env.number "OUTBOX_RETRY_MAX_DELAY_MS" 60000 = .finite (c.worker.retryMaxDelayMs : Nat)
  pollInterval : env.number "OUTBOX_POLL_INTERVAL_MS" 1000 = .finite (c.worker.pollIntervalMs : Nat)
  maxAttempts : env.number "OUTBOX_MAX_ATTEMPTS" 10 = .finite (c.worker.maxAttempts : Nat)
  confirmTimeout : env.number "RABBITMQ_PUBLISH_CONFIRM_TIMEOUT_MS" 10000 = .finite ((c.confirmTimeoutMs : Nat) : Rat)
  shutdownGrace : env.number "OUTBOX_SHUTDOWN_GRACE_MS" 30000 = .finite ((c.shutdownGraceMs : Nat) : Rat)

theorem reads_of_configure (h : configure cfg env = .ok c) : Reads env c := by
  unfold configure at h
  obtain ⟨service, hservice, h⟩ := ok_of_bind h
  obtain ⟨worker, hworker, h⟩ := ok_of_bind h
  obtain ⟨confirmTimeoutMs, hconfirm, h⟩ := ok_of_bind h
  obtain ⟨shutdownGraceMs, hgrace, h⟩ := ok_of_bind h
  cases h
  unfold IdempotencyService.construct at hservice
  obtain ⟨lease, hlease, hservice⟩ := ok_of_bind hservice
  obtain ⟨completed, hcompleted, hservice⟩ := ok_of_bind hservice
  obtain ⟨failed, hfailed, hservice⟩ := ok_of_bind hservice
  cases hservice
  unfold OutboxPublisherWorker.construct at hworker
  obtain ⟨poll, hpoll, hworker⟩ := ok_of_bind hworker
  obtain ⟨batch, -, hworker⟩ := ok_of_bind hworker
  obtain ⟨attempts, hattempts, hworker⟩ := ok_of_bind hworker
  obtain ⟨base, hbase, hworker⟩ := ok_of_bind hworker
  obtain ⟨max, hmax, hworker⟩ := ok_of_bind hworker
  obtain ⟨-, -, hworker⟩ := ok_of_bind hworker
  cases hworker
  exact {
    processingLease := parsePositiveNumber_ok hlease
    completedTtl := parsePositiveNumber_ok hcompleted
    failedTtl := parsePositiveNumber_ok hfailed
    retryBase := by exact_mod_cast positiveInteger_ok hbase
    retryMax := by exact_mod_cast positiveInteger_ok hmax
    pollInterval := by exact_mod_cast positiveInteger_ok hpoll
    maxAttempts := by exact_mod_cast positiveInteger_ok hattempts
    confirmTimeout := by exact_mod_cast positiveInteger_ok hconfirm
    shutdownGrace := by exact_mod_cast positiveInteger_ok hgrace }

end Accepted

/-! ## Usable environments -/

section Usable

variable {env : ProcessEnv} {cfg : Config} {c : Configured}

theorem isDuration_iff {q : Rat} {x : Numeric} (h : x = .finite q) :
    IsDuration x ↔ 1 ≤ q ∧ q ≤ maxDateMs - maxClockMs := by
  constructor
  · rintro ⟨q', hq', hrange⟩
    rw [h] at hq'
    cases hq'
    exact hrange
  · exact fun hrange => ⟨q, h, hrange⟩

theorem atMost_iff {n : Nat} {x : Numeric} (h : x = .finite (n : Rat)) : AtMost maxInt32 x ↔ n ≤ maxInt32 := by
  constructor
  · rintro ⟨q, hq, hle⟩
    rw [h] at hq
    cases hq
    exact_mod_cast hle
  · intro hle
    exact ⟨n, h, by exact_mod_cast hle⟩

/-- The times of the next retry are those after a backoff, of any number of attempts. -/
theorem nextRetryAt_iff (w : OutboxPublisherWorker.WorkerConfig) :
    (∀ (now : Millis) (event : OutboxEventRecord) (error : String), |now| ≤ maxClockMs →
      After now (OutboxPublisherWorker.publishFailed w now event error).nextRetryAt) ↔
    ((min w.retryMaxDelayMs (w.retryBaseDelayMs * 2 ^ 52) : Nat) : Rat) ≤ maxDateMs - maxClockMs := by
  have hevery : (∀ (now : Millis) (event : OutboxEventRecord) (error : String), |now| ≤ maxClockMs →
      After now (OutboxPublisherWorker.publishFailed w now event error).nextRetryAt) ↔
      ∀ attempts, ∀ now : Millis, |now| ≤ maxClockMs →
        After now (IdempotencyService.newDate (now + (OutboxPublisherWorker.retryDelayFor w attempts : Rat))) := by
    constructor
    · intro h attempts now hnow
      exact h now ⟨.ofNat 0, "", .ofNat 0, "", 0, "", .null, .pending, attempts, none, none, 0, none⟩ "" hnow
    · exact fun h now event _ hnow => h event.attempts now hnow
  have hdelay : ∀ attempts, (∀ now : Millis, |now| ≤ maxClockMs →
      After now (IdempotencyService.newDate (now + (OutboxPublisherWorker.retryDelayFor w attempts : Rat)))) ↔
        (OutboxPublisherWorker.retryDelayFor w attempts : Rat) ≤ maxDateMs - maxClockMs := by
    intro attempts
    have hpos := retryDelayFor_pos w attempts
    have hone : (1 : Rat) ≤ (OutboxPublisherWorker.retryDelayFor w attempts : Rat) := by exact_mod_cast hpos
    rw [after_iff (by exact_mod_cast hpos)]
    exact and_iff_right hone
  rw [hevery, forall_congr' hdelay]
  constructor
  · exact fun h => h 52
  · intro h attempts
    have hle : (OutboxPublisherWorker.retryDelayFor w attempts : Rat) ≤
        (min w.retryMaxDelayMs (w.retryBaseDelayMs * 2 ^ 52) : Nat) := by exact_mod_cast retryDelayFor_le w attempts
    exact hle.trans h

/-- What an accepted environment configures can be used exactly if the environment is in range. -/
theorem configure_usable (h : configure cfg env = .ok c) : Usable c ↔ InRange env := by
  have hr := reads_of_configure h
  have hlease := (after_iff c.service.processingLeaseMs_pos).trans (isDuration_iff hr.processingLease).symm
  have hcompleted := (after_iff c.service.completedTtlMs_pos).trans (isDuration_iff hr.completedTtl).symm
  have hfailed := (after_iff c.service.failedTtlMs_pos).trans (isDuration_iff hr.failedTtl).symm
  have hretry := nextRetryAt_iff c.worker.toWorkerConfig
  have hpoll := atMost_iff hr.pollInterval
  have hconfirm := atMost_iff hr.confirmTimeout
  have hgrace := atMost_iff hr.shutdownGrace
  have hattempts := atMost_iff hr.maxAttempts
  constructor
  · intro hu
    exact {
      processingLease := hlease.1 hu.processingLease
      completedTtl := hcompleted.1 hu.completedTtl
      failedTtl := hfailed.1 hu.failedTtl
      backoff := ⟨_, _, hr.retryBase, hr.retryMax, by exact_mod_cast hretry.1 hu.nextRetryAt⟩
      pollInterval := hpoll.2 hu.pollInterval.2
      confirmTimeout := hconfirm.2 hu.confirmTimeout.2
      shutdownGrace := hgrace.2 hu.shutdownGrace.2
      maxAttempts := hattempts.2 hu.maxAttempts }
  · intro hi
    obtain ⟨base, max, hbase, hmax, hbackoff⟩ := hi.backoff
    rw [hr.retryBase] at hbase
    rw [hr.retryMax] at hmax
    cases hbase
    cases hmax
    exact {
      processingLease := hlease.2 hi.processingLease
      completedTtl := hcompleted.2 hi.completedTtl
      failedTtl := hfailed.2 hi.failedTtl
      nextRetryAt := hretry.2 (by exact_mod_cast hbackoff)
      backoff := retryDelayFor_bounds _
      backoff_mono := retryDelayFor_mono _
      pollInterval := ⟨c.worker.pollIntervalMs_pos, hpoll.1 hi.pollInterval⟩
      confirmTimeout := ⟨c.confirmTimeoutMs.2, hconfirm.1 hi.confirmTimeout⟩
      shutdownGrace := ⟨c.shutdownGraceMs.2, hgrace.1 hi.shutdownGrace⟩
      maxAttempts := hattempts.1 hi.maxAttempts }

end Usable

namespace Sample

/-- Every variable is set. -/
def deployed : ProcessEnv := fun name =>
  [("IDEMPOTENCY_PROCESSING_LEASE_MS", "30000.5"), ("IDEMPOTENCY_COMPLETED_TTL_MS", "864e5"),
    ("IDEMPOTENCY_FAILED_TTL_MS", "3600000"), ("OUTBOX_POLL_INTERVAL_MS", "500"), ("OUTBOX_BATCH_SIZE", "20"),
    ("OUTBOX_MAX_ATTEMPTS", "5"), ("OUTBOX_RETRY_BASE_DELAY_MS", "250"), ("OUTBOX_RETRY_MAX_DELAY_MS", "30000"),
    ("OUTBOX_SHUTDOWN_GRACE_MS", "15000"), ("RABBITMQ_PUBLISH_CONFIRM_TIMEOUT_MS", "5000")].lookup name

theorem deployed_inRange : InRange deployed where
  processingLease := ⟨60001 / 2, by decide +kernel, by norm_num, by norm_num [maxDateMs, maxClockMs]⟩
  completedTtl := ⟨86400000, by decide +kernel, by norm_num, by norm_num [maxDateMs, maxClockMs]⟩
  failedTtl := ⟨3600000, by decide +kernel, by norm_num, by norm_num [maxDateMs, maxClockMs]⟩
  backoff := ⟨250, 30000, by decide +kernel, by decide +kernel, by norm_num [maxDateMs, maxClockMs]⟩
  pollInterval := ⟨500, by decide +kernel, by norm_num [maxInt32]⟩
  confirmTimeout := ⟨5000, by decide +kernel, by norm_num [maxInt32]⟩
  shutdownGrace := ⟨15000, by decide +kernel, by norm_num [maxInt32]⟩
  maxAttempts := ⟨5, by decide +kernel, by norm_num [maxInt32]⟩

/-- A poll interval that no timer waits for. -/
def longPoll : ProcessEnv := fun name => if name = "OUTBOX_POLL_INTERVAL_MS" then some "2147483648" else none

end Sample

/-- An environment that sets every variable, in range, is accepted and usable. -/
theorem configure_usable_deployed : ∃ c, configure Sample.cfg Sample.deployed = .ok c ∧
    c.worker.pollIntervalMs = 500 ∧ Usable c := by
  have hok : ((configure Sample.cfg Sample.deployed).toOption.any fun c => c.worker.pollIntervalMs = 500) = true := by
    decide +kernel
  cases hc : configure Sample.cfg Sample.deployed with
  | error e =>
    rw [hc] at hok
    cases hok
  | ok c =>
    rw [hc] at hok
    exact ⟨c, rfl, of_decide_eq_true hok, (configure_usable hc).2 Sample.deployed_inRange⟩

/-- Not every accepted environment is usable. -/
theorem not_configure_usable : ¬ ∀ (cfg : Config) (env : ProcessEnv) (c : Configured),
    configure cfg env = .ok c → Usable c := by
  intro h
  have hok : (configure Sample.cfg Sample.longPoll).isOk = true := by decide +kernel
  cases hc : configure Sample.cfg Sample.longPoll with
  | error e =>
    rw [hc] at hok
    cases hok
  | ok c =>
    have hread := (reads_of_configure hc).pollInterval
    have htext : Sample.longPoll.number "OUTBOX_POLL_INTERVAL_MS" 1000 = .finite 2147483648 := by decide +kernel
    rw [htext] at hread
    have hpoll : c.worker.pollIntervalMs = 2147483648 := by exact_mod_cast (Numeric.finite.inj hread).symm
    have hle := (h _ _ c hc).pollInterval.2
    rw [hpoll] at hle
    exact absurd hle (by decide)

end PaymentOrchestration
