import BisakerjaScraper.Python.Text
import BisakerjaScraper.Shared.RateLimit

/-! The HTTP client of a source.

    A call makes up to `max_retries + 1` attempts. An attempt asks the limiter for its place, sends
    the request, reads the body up to a bound, looks at the status, and decodes the body. A
    `FetchError` that is retryable is recorded and retried; anything else ends the call. What the
    server does in each attempt, and the two times the limiter reads, are inputs. -/

namespace Bisakerja
open Schemes

/-- `HttpClientConfig`, as far as a call reads it. -/
structure HttpClientConfig where
  maxRetries : ℕ
  maxResponseBytes : ℕ
  retryBackoffSeconds : ℚ := 1 / 5
  max_pos : 0 < maxResponseBytes

/-- What the server does: it answers with a status and a body, in chunks, or the transport breaks
    after some chunks, with the class of the exception. -/
inductive ServerReply where
  | response (status : ℕ) (chunks : List Body)
  | timeout (chunks : List Body) (className : String)
  | transportError (chunks : List Body) (className : String)

/-- One attempt as it will find things: the time at the limiter, the reply of the server, and the
    time a failure is recorded. -/
structure Attempt where
  now : ℚ
  reply : ServerReply
  recordedAt : ℚ

/-- `SourceHttpClient`: its configuration, and that of its limiter if it has one. -/
structure SourceHttpClient where
  config : HttpClientConfig
  limiterConfig : Option SourceRateLimitConfig

/-! ### One attempt -/

/-- `_read_bounded`: the body of the chunks, unless they are too many bytes. -/
def readBounded (maxResponseBytes : ℕ) : List Body → ℕ → Except PyException Body
  | [], _ => .ok []
  | chunk :: chunks, totalSize =>
    if maxResponseBytes < totalSize + chunk.length then
      .error (fetchError "source response exceeded size limit"
        [("maxResponseBytes", .int maxResponseBytes)])
    else (readBounded maxResponseBytes chunks (totalSize + chunk.length)).map (chunk ++ ·)

/-- The character the bytes start with, and its length in bytes. -/
def firstCharacter (body : Body) : Option (String × ℕ) :=
  [1, 2, 3, 4].findSome? fun n => (String.fromUTF8? ⟨(body.take n).toArray⟩).map (·, n)

/-- `body.decode("utf-8", errors="ignore")`, past the bytes of a character that was read: bytes that
    start no character are left out. -/
def decodeIgnoring : Body → ℕ → List Char
  | [], _ => []
  | _ :: rest, skipped + 1 => decodeIgnoring rest skipped
  | byte :: rest, 0 =>
    match firstCharacter (byte :: rest) with
    | some (text, n) => text.toList ++ decodeIgnoring rest (n - 1)
    | none => decodeIgnoring rest 0

/-- The texts of a challenge page. -/
def challengeTexts : List String :=
  ["cf_chl_opt", "challenge-platform", "just a moment", "cloudflare"]

/-- The body of a 403 is a challenge page. The texts are ASCII, and no other character becomes one of
    their letters in lower case. -/
def isChallengePage (body : Body) : Bool :=
  let textPreview := String.ofList ((decodeIgnoring (body.take 4096) 0).map Char.toLower)
  challengeTexts.any fun text => isInfix text textPreview

/-- A `FetchError` of the transport, which is retried. -/
def transportFailure (message className : String) : PyException :=
  .scraper .fetch message none true [("error", .str className)]

/-- The `FetchError` of an error status. -/
def statusError (status : ℕ) (body : Body) : PyException :=
  .scraper .fetch "source request returned error status" none (isRetriableStatus status)
    (("statusCode", .int status) ::
      if status = 403 && isChallengePage body then [("blocker", .str "cloudflare_challenge")] else [])

/-- The part of `_request_bytes_once` past the limiter: the body of a reply. -/
def receive (config : HttpClientConfig) : ServerReply → Except PyException Body
  | .response status chunks => do
    let body ← readBounded config.maxResponseBytes chunks 0
    if 400 ≤ status ∧ status ≤ 599 then Except.error (statusError status body)
    pure body
  | .timeout chunks className => do
    let _ ← readBounded config.maxResponseBytes chunks 0
    Except.error (transportFailure "source request timed out" className)
  | .transportError chunks className => do
    let _ ← readBounded config.maxResponseBytes chunks 0
    Except.error (transportFailure "source request transport failed" className)

/-- An attempt as it went: whether its request was sent, and how it ended. -/
structure AttemptLog (α : Type) where
  sent : Bool
  outcome : Except PyException α

namespace SourceHttpClient

variable {α : Type} (client : SourceHttpClient) (decode : Body → Except PyException α)

/-- `wait_before_request`, where there is a limiter. -/
def awaitTurn (limiter : SourceRateLimiter) (now : ℚ) :
    SourceRateLimiter × Except PyException ℚ :=
  match client.limiterConfig with
  | some config => config.waitBeforeRequest limiter now
  | none => (limiter, .ok 0)

/-- `_request_bytes_once` and the decoding of its body. -/
def requestOnce (limiter : SourceRateLimiter) (attempt : Attempt) :
    SourceRateLimiter × AttemptLog α :=
  match client.awaitTurn limiter attempt.now with
  | (limiter, .error exc) => (limiter, ⟨false, .error exc⟩)
  | (limiter, .ok _) =>
    match receive client.config attempt.reply with
    | .error exc => (limiter, ⟨true, .error exc⟩)
    | .ok body =>
      (if client.limiterConfig.isSome then limiter.recordSuccess else limiter, ⟨true, decode body⟩)

/-- `_record_request_error`, where there is a limiter. -/
def recordError (limiter : SourceRateLimiter) (error : PyException) (now : ℚ) :
    SourceRateLimiter :=
  match client.limiterConfig with
  | some config => recordRequestError config limiter error now
  | none => limiter

/-- `_backoff_after_failure`: the seconds to sleep. -/
def backoff (limiter : SourceRateLimiter) : Except PyException ℚ :=
  match client.limiterConfig with
  | some config => config.backoffDelay limiter.failureCount
  | none => .ok (max client.config.retryBackoffSeconds 0)

/-- `except FetchError`. -/
def isFetchError : PyException → Bool
  | .scraper .fetch _ _ _ _ => true
  | _ => false

/-- A call as it went: its attempts in order, how it ended, and the limiter afterwards. -/
structure CallLog (α : Type) where
  attempts : List (AttemptLog α)
  result : Except PyException α
  limiter : SourceRateLimiter

/-- The loop of `request_json` and `request_text`, for the attempts that are left. -/
def requestLoop (attempts : ℕ → Attempt) : ℕ → ℕ → SourceRateLimiter → CallLog α
  | 0, _, limiter => ⟨[], .error (fetchError "request failed before execution" []), limiter⟩
  | left + 1, n, limiter =>
    match client.requestOnce decode limiter (attempts n) with
    | (limiter, ⟨sent, .ok value⟩) => ⟨[⟨sent, .ok value⟩], .ok value, limiter⟩
    | (limiter, ⟨sent, .error error⟩) =>
      if isFetchError error then
        let limiter := client.recordError limiter error (attempts n).recordedAt
        if !error.retryable || left = 0 then ⟨[⟨sent, .error error⟩], .error error, limiter⟩
        else match client.backoff limiter with
          | .error exc => ⟨[⟨sent, .error error⟩], .error exc, limiter⟩
          | .ok _ =>
            let rest := requestLoop attempts left (n + 1) limiter
            { rest with attempts := ⟨sent, .error error⟩ :: rest.attempts }
      else ⟨[⟨sent, .error error⟩], .error error, limiter⟩

/-- A call of the client. -/
def request (attempts : ℕ → Attempt) (limiter : SourceRateLimiter) : CallLog α :=
  client.requestLoop decode attempts (client.config.maxRetries + 1) 0 limiter

/-- `request_json`. -/
def requestJson (loads : JsonLoads) (attempts : ℕ → Attempt) (limiter : SourceRateLimiter) :
    CallLog Dict :=
  client.request (fun body => Bisakerja.requestJson loads (.ok body)) attempts limiter

/-- `request_text`. -/
def requestText (attempts : ℕ → Attempt) (limiter : SourceRateLimiter) : CallLog String :=
  client.request decodeUtf8 attempts limiter

/-! ### What the limiter sees of an attempt -/

/-- The limiter after an attempt and the recording of its error. -/
def limiterAfter (limiter : SourceRateLimiter) (attempt : Attempt) : SourceRateLimiter :=
  let (limiter, log) := client.requestOnce decode limiter attempt
  match log.outcome with
  | .ok _ => limiter
  | .error error =>
    if isFetchError error then client.recordError limiter error attempt.recordedAt else limiter

/-- The events of an attempt. -/
def attemptEvents (config : SourceRateLimitConfig) (limiter : SourceRateLimiter)
    (attempt : Attempt) : List LimiterEvent :=
  .attempt attempt.now attempt.recordedAt ::
    match (config.waitBeforeRequest limiter attempt.now).2 with
    | .error _ => []
    | .ok _ =>
      match receive client.config attempt.reply with
      | .error error => [.failed error attempt.recordedAt]
      | .ok _ => [.succeeded]

/-! ### The contract of a call -/

/-- What a call promises: no more requests than its attempts; every attempt but the last ended with
    a `FetchError` that is retried, and the call ends as the last one did; it raises nothing but a
    `FetchError`. -/
structure Contract (log : CallLog α) : Prop where
  bounded : log.attempts.countP (·.sent) ≤ client.config.maxRetries + 1
  retried : ∃ before last, log.attempts = before ++ [last] ∧ log.result = last.outcome ∧
    ∀ attempt ∈ before, ∃ error, attempt.outcome = .error error ∧ isFetchError error = true ∧
      error.retryable = true
  fetchErrors : ∀ exc, log.result = .error exc → isFetchError exc = true

/-- The `n`-th attempt is made, with the limiter as it is then. -/
inductive Made (attempts : ℕ → Attempt) (start : SourceRateLimiter) : ℕ → SourceRateLimiter → Prop
  | first : Made attempts start 0 start
  | next {n : ℕ} {limiter limiter' : SourceRateLimiter} {sent : Bool} {error : PyException}
      {seconds : ℚ} (h : Made attempts start n limiter) (hleft : n < client.config.maxRetries)
      (honce : client.requestOnce decode limiter (attempts n) = (limiter', ⟨sent, .error error⟩))
      (hfetch : isFetchError error = true) (hretryable : error.retryable = true)
      (hbackoff : client.backoff
        (client.recordError limiter' error (attempts n).recordedAt) = .ok seconds) :
      Made attempts start (n + 1) (client.recordError limiter' error (attempts n).recordedAt)

/-- The `n`-th attempt meets what the client does not turn into a `FetchError`: a body it cannot
    decode, a rate that is no float, or a failure count whose backoff is none. -/
inductive Unexpected (undecodable : Body → Prop) (attempts : ℕ → Attempt) (n : ℕ)
    (limiter : SourceRateLimiter) : Prop
  | body {limiter' : SourceRateLimiter} {seconds : ℚ} {body : Body}
      (hturn : client.awaitTurn limiter (attempts n).now = (limiter', .ok seconds))
      (hreceive : receive client.config (attempts n).reply = .ok body) (h : undecodable body)
  | rate {config : SourceRateLimitConfig} (hconfig : client.limiterConfig = some config)
      (hturn : ¬ config.TurnsAway limiter (attempts n).now)
      (h : exceedsFloat config.requestsPerMinute = true)
  | backoff {config : SourceRateLimitConfig} {limiter' : SourceRateLimiter} {sent : Bool}
      {error : PyException} (hconfig : client.limiterConfig = some config)
      (hleft : n < client.config.maxRetries)
      (honce : client.requestOnce decode limiter (attempts n) = (limiter', ⟨sent, .error error⟩))
      (hfetch : isFetchError error = true) (hretryable : error.retryable = true)
      (h : 1024 < (recordRequestError config limiter' error (attempts n).recordedAt).failureCount)

variable {client decode}

theorem isFetchError_of_readBounded {maxResponseBytes : ℕ} {chunks : List Body} {totalSize : ℕ}
    {exc : PyException} (h : readBounded maxResponseBytes chunks totalSize = .error exc) :
    isFetchError exc = true := by
  induction chunks generalizing totalSize with
  | nil => cases h
  | cons chunk chunks ih =>
    unfold readBounded at h
    split at h
    · cases h
      rfl
    · cases hrest : readBounded maxResponseBytes chunks (totalSize + chunk.length) with
      | ok body =>
        rw [hrest] at h
        cases h
      | error exc' =>
        rw [hrest] at h
        cases h
        exact ih hrest

/-- Whatever the server does short of a good status is a `FetchError`. -/
theorem isFetchError_of_receive {config : HttpClientConfig} {reply : ServerReply}
    {exc : PyException} (h : receive config reply = .error exc) : isFetchError exc = true := by
  cases reply with
  | response status chunks =>
    rcases error_bind_iff.mp h with h | ⟨body, -, h⟩
    · exact isFetchError_of_readBounded h
    · split at h <;> cases h
      rfl
  | timeout chunks className =>
    rcases error_bind_iff.mp h with h | ⟨body, -, h⟩
    · exact isFetchError_of_readBounded h
    · cases h
      rfl
  | transportError chunks className =>
    rcases error_bind_iff.mp h with h | ⟨body, -, h⟩
    · exact isFetchError_of_readBounded h
    · cases h
      rfl

/-- The only error of a limiter that is no `FetchError` is none of the loops' either. -/
theorem isFetchOrParse_waitBeforeRequest {config : SourceRateLimitConfig}
    {limiter limiter' : SourceRateLimiter} {now : ℚ} {exc : PyException}
    (h : config.waitBeforeRequest limiter now = (limiter', .error exc)) :
    exc.isFetchOrParse = isFetchError exc := by
  unfold SourceRateLimitConfig.waitBeforeRequest SourceRateLimitConfig.schedule at h
  repeat' split at h
  all_goals cases h
  all_goals rfl

/-- What a client does to its limiter in an attempt is what the limiter observes of the events of
    the attempt. -/
theorem limiterAfter_eq {config : SourceRateLimitConfig}
    (hconfig : client.limiterConfig = some config)
    (hdecode : ∀ body error, decode body = .error error → isFetchError error = true →
      error.retryable = false) (limiter : SourceRateLimiter) (attempt : Attempt) :
    client.limiterAfter decode limiter attempt =
      (client.attemptEvents config limiter attempt).foldl config.observe limiter := by
  unfold limiterAfter attemptEvents requestOnce awaitTurn
  rw [hconfig]
  dsimp only
  rcases hwait : config.waitBeforeRequest limiter attempt.now with ⟨limiter', error | seconds⟩
  · have hkind := isFetchOrParse_waitBeforeRequest hwait
    simp [SourceRateLimitConfig.observe, hwait, hkind, recordError, hconfig]
  · cases hreceive : receive client.config attempt.reply with
    | error error =>
      have hfetch := isFetchError_of_receive hreceive
      simp [SourceRateLimitConfig.observe, hwait, hfetch, recordError, hconfig]
    | ok body =>
      cases houtcome : decode body with
      | ok value => simp [SourceRateLimitConfig.observe, hwait, houtcome]
      | error error =>
        by_cases hfetch : isFetchError error = true
        · have hretryable := hdecode body error houtcome hfetch
          simp [SourceRateLimitConfig.observe, hwait, houtcome, hfetch, recordError, hconfig,
            recordRequestError, hretryable]
        · simp [SourceRateLimitConfig.observe, hwait, houtcome, hfetch]

/-- The limiter turns an attempt away with a `FetchError`, or its rate is no float. -/
theorem awaitTurn_error {limiter limiter' : SourceRateLimiter} {now : ℚ} {exc : PyException}
    (h : client.awaitTurn limiter now = (limiter', .error exc)) :
    isFetchError exc = true ∨ ∃ config, client.limiterConfig = some config ∧
      ¬ config.TurnsAway limiter now ∧ exceedsFloat config.requestsPerMinute = true := by
  unfold awaitTurn at h
  split at h
  · next config hconfig =>
    have hschedule : ∀ l : SourceRateLimiter, config.schedule l now = (limiter', .error exc) →
        exceedsFloat config.requestsPerMinute = true := by
      intro l hl
      unfold SourceRateLimitConfig.schedule at hl
      split at hl
      · next hrate => exact hrate
      · cases hl
    unfold SourceRateLimitConfig.waitBeforeRequest at h
    split at h
    · split at h
      · next hcooled =>
        refine .inr ⟨config, hconfig, ?_, hschedule _ h⟩
        rintro ⟨-, hcool⟩
        rw [hcooled] at hcool
        cases hcool
      · cases h
        exact .inl rfl
    · next hclosed => exact .inr ⟨config, hconfig, fun hturned => hclosed hturned.1, hschedule _ h⟩
  · cases h

/-- An attempt that is not turned away is sent, unless the rate is no float. -/
theorem awaitTurn_of_rate {limiter : SourceRateLimiter} {now : ℚ} {config : SourceRateLimitConfig}
    (hconfig : client.limiterConfig = some config) (hturn : ¬ config.TurnsAway limiter now)
    (hrate : exceedsFloat config.requestsPerMinute = true) :
    ∃ limiter', client.awaitTurn limiter now = (limiter', .error intTooLarge) := by
  unfold awaitTurn
  rw [hconfig]
  dsimp only
  unfold SourceRateLimitConfig.waitBeforeRequest SourceRateLimitConfig.schedule
  rw [if_pos hrate, if_pos hrate]
  split
  · next hopen =>
    split
    · exact ⟨_, rfl⟩
    · next hcool => exact absurd ⟨hopen, Bool.eq_false_iff.mpr hcool⟩ hturn
  · exact ⟨_, rfl⟩

theorem sub_pow_le_pow_iff {m k n : ℕ} (h : k < m) : 2 ^ (m + 1) - 2 ^ k ≤ 2 ^ n ↔ m + 1 ≤ n := by
  constructor
  · intro hle
    by_contra hlt
    have hpow : 2 ^ n ≤ 2 ^ m := Nat.pow_le_pow_right (by omega) (by omega)
    have hsmall : 2 ^ k < 2 ^ m := Nat.pow_lt_pow_right (by omega) h
    rw [Nat.pow_succ] at hle
    omega
  · exact fun hle => (Nat.sub_le _ _).trans (Nat.pow_le_pow_right (by omega) hle)

theorem exceedsFloat_pow_iff {n : ℕ} : exceedsFloat (2 ^ n) = true ↔ 1024 ≤ n := by
  unfold exceedsFloat
  rw [decide_eq_true_iff, show (1024 : ℕ) = 1023 + 1 from rfl]
  exact sub_pow_le_pow_iff (by omega)

/-- The backoff is no float from the 1025th failure in a row on. -/
theorem backoff_error_iff {limiter : SourceRateLimiter} {exc : PyException} :
    client.backoff limiter = .error exc ↔ exc = intTooLarge ∧
      ∃ config, client.limiterConfig = some config ∧ 1024 < limiter.failureCount := by
  unfold backoff
  cases hconfig : client.limiterConfig with
  | none => simp
  | some config =>
    simp only [Option.some.injEq, exists_eq_left']
    unfold SourceRateLimitConfig.backoffDelay
    split
    · next hzero => simp [hzero]
    · split
      · next hlarge =>
        have hcount := exceedsFloat_pow_iff.mp hlarge
        simp only [Except.error.injEq]
        exact ⟨fun h => ⟨h.symm, by omega⟩, fun h => h.1.symm⟩
      · next hsmall =>
        rw [exceedsFloat_pow_iff] at hsmall
        simp only [reduceCtorEq, false_iff, not_and]
        omega

/-- What an attempt raises besides a `FetchError`. -/
theorem requestOnce_error {undecodable : Body → Prop} {attempts : ℕ → Attempt} {n : ℕ}
    {limiter limiter' : SourceRateLimiter} {sent : Bool} {exc : PyException}
    (hdecode : ∀ body, (∃ exc, decode body = .error exc ∧ isFetchError exc = false) ↔
      undecodable body)
    (honce : client.requestOnce decode limiter (attempts n) = (limiter', ⟨sent, .error exc⟩))
    (hexc : isFetchError exc = false) :
    client.Unexpected decode undecodable attempts n limiter := by
  unfold requestOnce at honce
  split at honce
  · next waited error hturn =>
    cases honce
    rcases awaitTurn_error hturn with hfetch | ⟨config, hconfig, hnot, hrate⟩
    · rw [hexc] at hfetch
      cases hfetch
    · exact .rate hconfig hnot hrate
  · next waited seconds hturn =>
    split at honce
    · next error hreceive =>
      cases honce
      rw [isFetchError_of_receive hreceive] at hexc
      cases hexc
    · next body hreceive =>
      have houtcome : decode body = .error exc := by
        have hlog := congrArg (fun entry => entry.2.outcome) honce
        simpa using hlog
      exact .body hturn hreceive ((hdecode body).mp ⟨exc, houtcome, hexc⟩)

/-- An attempt that meets the unexpected raises something else, or its backoff does. -/
theorem unexpected_cases {undecodable : Body → Prop} {attempts : ℕ → Attempt} {n : ℕ}
    {limiter : SourceRateLimiter}
    (hdecode : ∀ body, (∃ exc, decode body = .error exc ∧ isFetchError exc = false) ↔
      undecodable body)
    (h : client.Unexpected decode undecodable attempts n limiter) :
    (∃ limiter' sent exc, client.requestOnce decode limiter (attempts n)
        = (limiter', ⟨sent, .error exc⟩) ∧ isFetchError exc = false) ∨
      ∃ limiter' sent error, client.requestOnce decode limiter (attempts n)
          = (limiter', ⟨sent, .error error⟩) ∧ isFetchError error = true ∧
        error.retryable = true ∧ n < client.config.maxRetries ∧
        client.backoff (client.recordError limiter' error (attempts n).recordedAt)
          = .error intTooLarge := by
  cases h with
  | body hturn hreceive hbody =>
    obtain ⟨exc, hexc, hfetch⟩ := (hdecode _).mpr hbody
    have honce : ∃ limiter', client.requestOnce decode limiter (attempts n)
        = (limiter', ⟨true, .error exc⟩) := by
      unfold requestOnce
      simp [hturn, hreceive, hexc]
    obtain ⟨limiter', honce⟩ := honce
    exact .inl ⟨limiter', true, exc, honce, hfetch⟩
  | rate hconfig hturn hrate =>
    obtain ⟨limiter', hawait⟩ := awaitTurn_of_rate hconfig hturn hrate
    refine .inl ⟨limiter', false, intTooLarge, ?_, rfl⟩
    unfold requestOnce
    simp only [hawait]
  | backoff hconfig hleft honce hfetch hretryable hcount =>
    refine .inr ⟨_, _, _, honce, hfetch, hretryable, hleft, backoff_error_iff.mpr ⟨rfl, _, hconfig, ?_⟩⟩
    unfold recordError
    rw [hconfig]
    exact hcount

/-! ### The loop -/

section

variable {attempts : ℕ → Attempt} {start limiter limiter' : SourceRateLimiter} {sent : Bool}

/-- An attempt that raises something else ends the call. -/
theorem requestLoop_of_other {exc : PyException} {n left : ℕ}
    (honce : client.requestOnce decode limiter (attempts n) = (limiter', ⟨sent, .error exc⟩))
    (hexc : isFetchError exc = false) :
    client.requestLoop decode attempts (left + 1) n limiter
      = ⟨[⟨sent, .error exc⟩], .error exc, limiter'⟩ := by
  simp [requestLoop, honce, hexc]

/-- A body that is decoded ends the call. -/
theorem requestLoop_of_ok {value : α} {n left : ℕ}
    (honce : client.requestOnce decode limiter (attempts n) = (limiter', ⟨sent, .ok value⟩)) :
    client.requestLoop decode attempts (left + 1) n limiter
      = ⟨[⟨sent, .ok value⟩], .ok value, limiter'⟩ := by
  simp [requestLoop, honce]

/-- A `FetchError` that is not retried ends the call. -/
theorem requestLoop_of_last {error : PyException} {n left : ℕ}
    (honce : client.requestOnce decode limiter (attempts n) = (limiter', ⟨sent, .error error⟩))
    (hfetch : isFetchError error = true) (hlast : error.retryable = false ∨ left = 0) :
    client.requestLoop decode attempts (left + 1) n limiter
      = ⟨[⟨sent, .error error⟩], .error error,
          client.recordError limiter' error (attempts n).recordedAt⟩ := by
  rcases hlast with hlast | hlast <;> simp [requestLoop, honce, hfetch, hlast]

/-- An attempt is retried where its error is retryable, an attempt is left and there is a
    backoff. -/
theorem requestLoop_of_retry {error : PyException} {n left : ℕ} {seconds : ℚ}
    (honce : client.requestOnce decode limiter (attempts n) = (limiter', ⟨sent, .error error⟩))
    (hfetch : isFetchError error = true) (hretryable : error.retryable = true) (hleft : left ≠ 0)
    (hbackoff : client.backoff
      (client.recordError limiter' error (attempts n).recordedAt) = .ok seconds) :
    client.requestLoop decode attempts (left + 1) n limiter =
      let rest := client.requestLoop decode attempts left (n + 1)
        (client.recordError limiter' error (attempts n).recordedAt)
      { rest with attempts := ⟨sent, .error error⟩ :: rest.attempts } := by
  simp [requestLoop, honce, hfetch, hretryable, hleft, hbackoff]

/-- A backoff that is no float ends the call. -/
theorem requestLoop_of_backoff {error exc : PyException} {n left : ℕ}
    (honce : client.requestOnce decode limiter (attempts n) = (limiter', ⟨sent, .error error⟩))
    (hfetch : isFetchError error = true) (hretryable : error.retryable = true) (hleft : left ≠ 0)
    (hbackoff : client.backoff
      (client.recordError limiter' error (attempts n).recordedAt) = .error exc) :
    (client.requestLoop decode attempts (left + 1) n limiter).result = .error exc := by
  simp [requestLoop, honce, hfetch, hretryable, hleft, hbackoff]

/-- The call goes on from every attempt it makes. -/
theorem Made.result {n : ℕ} (h : client.Made decode attempts start n limiter) :
    n ≤ client.config.maxRetries ∧ (client.request decode attempts start).result =
      (client.requestLoop decode attempts (client.config.maxRetries - n + 1) n limiter).result := by
  induction h with
  | first => exact ⟨Nat.zero_le _, rfl⟩
  | @next n limiter limiter' sent error seconds _ hleft honce hfetch hretryable hbackoff ih =>
    refine ⟨hleft, ih.2.trans ?_⟩
    have hsucc : client.config.maxRetries - n = client.config.maxRetries - (n + 1) + 1 := by omega
    rw [requestLoop_of_retry honce hfetch hretryable (by omega) hbackoff, hsucc]

/-- What the loop promises for the attempts that are left. -/
structure LoopContract (left : ℕ) (log : CallLog α) : Prop where
  bounded : log.attempts.countP (·.sent) ≤ left
  retried : ∃ before last, log.attempts = before ++ [last] ∧ log.result = last.outcome ∧
    ∀ attempt ∈ before, ∃ error, attempt.outcome = .error error ∧ isFetchError error = true ∧
      error.retryable = true
  fetchErrors : ∀ exc, log.result = .error exc → isFetchError exc = true

/-- The last attempt of a call. -/
theorem loopContract_last {left : ℕ} (last : AttemptLog α)
    (h : ∀ exc, last.outcome = .error exc → isFetchError exc = true) :
    LoopContract (left + 1) ⟨[last], last.outcome, limiter⟩ := by
  refine ⟨?_, ⟨[], last, rfl, rfl, by simp⟩, h⟩
  simp only [List.countP_singleton]
  split <;> omega

/-- An attempt that is retried comes before those of the rest. -/
theorem LoopContract.cons {left : ℕ} {rest : CallLog α} {error : PyException}
    (h : LoopContract left rest) (hfetch : isFetchError error = true)
    (hretryable : error.retryable = true) :
    LoopContract (left + 1) { rest with attempts := ⟨sent, .error error⟩ :: rest.attempts } := by
  obtain ⟨hbounded, ⟨before, last, hattempts, hresult, hretried⟩, hfetchErrors⟩ := h
  refine ⟨?_, ⟨⟨sent, .error error⟩ :: before, last, by simp [hattempts], hresult, ?_⟩, hfetchErrors⟩
  · simp only [List.countP_cons]
    split <;> omega
  · intro attempt hattempt
    rcases List.mem_cons.mp hattempt with rfl | hattempt
    · exact ⟨error, rfl, hfetch, hretryable⟩
    · exact hretried attempt hattempt

/-- A loop that meets nothing unexpected keeps its promise. -/
theorem loopContract {undecodable : Body → Prop}
    (hdecode : ∀ body, (∃ exc, decode body = .error exc ∧ isFetchError exc = false) ↔
      undecodable body)
    (hnone : ∀ n limiter, client.Made decode attempts start n limiter →
      ¬ client.Unexpected decode undecodable attempts n limiter) (left n : ℕ)
    (limiter : SourceRateLimiter) (hmade : client.Made decode attempts start n limiter)
    (hleft : n + left = client.config.maxRetries) :
    LoopContract (left + 1) (client.requestLoop decode attempts (left + 1) n limiter) := by
  induction left generalizing n limiter with
  | zero =>
    rcases honce : client.requestOnce decode limiter (attempts n) with ⟨limiter', sent, error | value⟩
    · by_cases hfetch : isFetchError error = true
      · rw [requestLoop_of_last honce hfetch (.inr rfl)]
        refine loopContract_last ⟨sent, .error error⟩ fun exc h => ?_
        cases h
        exact hfetch
      · exact absurd (requestOnce_error hdecode honce (Bool.eq_false_iff.mpr hfetch))
          (hnone n limiter hmade)
    · rw [requestLoop_of_ok honce]
      exact loopContract_last ⟨sent, .ok value⟩ nofun
  | succ left ih =>
    rcases honce : client.requestOnce decode limiter (attempts n) with ⟨limiter', sent, error | value⟩
    · by_cases hfetch : isFetchError error = true
      · by_cases hretryable : error.retryable = true
        · cases hbackoff : client.backoff
              (client.recordError limiter' error (attempts n).recordedAt) with
          | error exc =>
            obtain ⟨-, config, hconfig, hcount⟩ := backoff_error_iff.mp hbackoff
            unfold recordError at hcount
            rw [hconfig] at hcount
            exact absurd (.backoff hconfig (by omega) honce hfetch hretryable hcount)
              (hnone n limiter hmade)
          | ok seconds =>
            rw [requestLoop_of_retry honce hfetch hretryable (Nat.succ_ne_zero left) hbackoff]
            have hnext := hmade.next (by omega) honce hfetch hretryable hbackoff
            exact (ih _ _ hnext (by omega)).cons hfetch hretryable
        · rw [requestLoop_of_last honce hfetch (.inl (Bool.eq_false_iff.mpr hretryable))]
          refine loopContract_last ⟨sent, .error error⟩ fun exc h => ?_
          cases h
          exact hfetch
      · exact absurd (requestOnce_error hdecode honce (Bool.eq_false_iff.mpr hfetch))
          (hnone n limiter hmade)
    · rw [requestLoop_of_ok honce]
      exact loopContract_last ⟨sent, .ok value⟩ nofun

/-- A call keeps its contract exactly when none of its attempts meets the unexpected. -/
theorem contract_iff_of_decode {undecodable : Body → Prop}
    (hdecode : ∀ body, (∃ exc, decode body = .error exc ∧ isFetchError exc = false) ↔
      undecodable body) :
    client.Contract (client.request decode attempts start) ↔
      ¬ ∃ n limiter, client.Made decode attempts start n limiter ∧
        client.Unexpected decode undecodable attempts n limiter := by
  constructor
  · rintro hcontract ⟨n, limiter, hmade, hunexpected⟩
    obtain ⟨hle, hresult⟩ := hmade.result
    rcases unexpected_cases hdecode hunexpected with ⟨limiter', sent, exc, honce, hexc⟩ |
      ⟨limiter', sent, error, honce, hfetch, hretryable, hleft, hbackoff⟩
    · rw [requestLoop_of_other honce hexc] at hresult
      rw [hcontract.fetchErrors exc hresult] at hexc
      cases hexc
    · rw [requestLoop_of_backoff honce hfetch hretryable (by omega) hbackoff] at hresult
      have hfetch := hcontract.fetchErrors intTooLarge hresult
      cases hfetch
  · intro hnone
    have hloop := loopContract hdecode (fun n limiter hmade h => hnone ⟨n, limiter, hmade, h⟩)
      client.config.maxRetries 0 start .first (Nat.zero_add _)
    exact ⟨hloop.bounded, hloop.retried, hloop.fetchErrors⟩

end

/-- A body whose decoding raises something other than a `JSONDecodeError`. -/
def JsonUndecodable (loads : JsonLoads) (body : Body) : Prop :=
  ∃ exc, loads.ofBody body = .error exc ∧ exc.isJsonDecodeError = false ∧ isFetchError exc = false

/-- A body that is no UTF-8. -/
def TextUndecodable (body : Body) : Prop := String.fromUTF8? ⟨body.toArray⟩ = none

theorem requestJson_error_iff {loads : JsonLoads} {body : Body} :
    (∃ exc, Bisakerja.requestJson loads (.ok body) = .error exc ∧ isFetchError exc = false) ↔
      JsonUndecodable loads body := by
  unfold Bisakerja.requestJson JsonUndecodable
  rw [ok_bind]
  rcases loads.ofBody body with exc | (_ | _ | _ | _ | _ | _ | entries)
  · by_cases hdecode : exc.isJsonDecodeError = true
    · simp [hdecode, fetchError, isFetchError]
    · simp [hdecode]
  all_goals simp [fetchError, isFetchError]

theorem decodeUtf8_error_iff {body : Body} :
    (∃ exc, decodeUtf8 body = .error exc ∧ isFetchError exc = false) ↔ TextUndecodable body := by
  unfold decodeUtf8 TextUndecodable
  cases String.fromUTF8? ⟨body.toArray⟩ with
  | none => simp [PyException.plain, isFetchError]
  | some text => simp

/-- The contract of the client, for both kinds of request: it is kept exactly when no attempt meets
    a body that cannot be decoded, a rate that is no float or a backoff that is none. -/
theorem contract_iff (client : SourceHttpClient) (loads : JsonLoads) (attempts : ℕ → Attempt)
    (start : SourceRateLimiter) :
    (client.Contract (client.requestJson loads attempts start) ↔
      ¬ ∃ n limiter, client.Made (fun body => Bisakerja.requestJson loads (.ok body)) attempts start
          n limiter ∧
        client.Unexpected (fun body => Bisakerja.requestJson loads (.ok body))
          (JsonUndecodable loads) attempts n limiter) ∧
    (client.Contract (client.requestText attempts start) ↔
      ¬ ∃ n limiter, client.Made decodeUtf8 attempts start n limiter ∧
        client.Unexpected decodeUtf8 TextUndecodable attempts n limiter) :=
  ⟨contract_iff_of_decode fun _ => requestJson_error_iff,
    contract_iff_of_decode fun _ => decodeUtf8_error_iff⟩

end SourceHttpClient

/-- A client without retries and without a limiter. -/
def plainClient : SourceHttpClient where
  config := { maxRetries := 0, maxResponseBytes := 1024, max_pos := by decide }
  limiterConfig := none

/-- A server that answers with one byte that starts no UTF-8 character. -/
def strayByte : Attempt := ⟨0, .response 200 [[0xFF]], 0⟩

/-- The decoding of the byte is no `FetchError`. -/
theorem not_contract_strayByte :
    ¬ plainClient.Contract (plainClient.requestText (fun _ => strayByte) {}) := by
  intro h
  have hraised := h.fetchErrors (.plain "UnicodeDecodeError" "'utf-8' codec can't decode byte") rfl
  cases hraised

end Bisakerja
