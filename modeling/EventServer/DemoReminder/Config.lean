import EventServer.Python.Str
import EventServer.ScheduledReminder.Config

/-! # The settings of the demo ingress

`demo_reminder/config.py`. What `from_environment` checks and the publisher relies on is part of
`PublisherSettings`. `Stdlib` collects the parsers and tables of the standard library. -/

namespace EventServer.DemoReminder

open EventServer.Python
open EventServer.ScheduledReminder (ZoneInfo)

class Stdlib where
  /-- `json.loads(data.decode("utf-8"))`. -/
  loads : List UInt8 → Except LoadsError Value
  /-- `datetime.fromisoformat(s)`: the wall clock and the offset, or `none` if it raises. -/
  datetimeFromIsoformat : Str → Option (Time × Option ℤ)
  /-- `value.astimezone(UTC)` of a wall clock without an offset, or `none` if it raises. -/
  localToUtc : Time → Option Time
  /-- The value of a decimal digit beyond ASCII. -/
  decimal : Char → Option (Fin 10)
  /-- `x * 60` of a float. -/
  timesSixty : Number → Number
  /-- `int(s)`, or `none` if it raises. -/
  intOfStr : Str → Option ℤ
  /-- `float(s)`, or `none` if it raises. -/
  floatOfStr : Str → Option Number
  /-- `ZoneInfo(key)`, or `none` if there is no such zone. -/
  zoneInfo : Str → Option ZoneInfo
  /-- `urlparse(url).path`, or `none` if it raises. -/
  urlPath : Str → Option Str

structure PublisherSettings where
  eventServerUrl : Str
  publisherToken : Str
  ingressToken : Option Str
  httpHost : Str
  httpPort : ℤ
  defaultDelaySeconds : ℤ
  maxDelaySeconds : ℤ
  requestTimeoutSeconds : Number
  maxBodyBytes : ℕ
  displayTimezone : ZoneInfo
  default_nonneg : 0 ≤ defaultDelaySeconds
  default_le : defaultDelaySeconds ≤ maxDelaySeconds
  max_le : maxDelaySeconds ≤ 86400
  body_bounds : 256 ≤ maxBodyBytes ∧ maxBodyBytes ≤ 1048576

/-! ### From the environment -/

/-- `minimum <= value <= maximum`, which is false of a NaN. -/
def InBounds (minimum maximum : ℤ) : Number → Prop
  | .finite q => minimum ≤ q ∧ q ≤ maximum
  | .negZero => minimum ≤ 0 ∧ 0 ≤ maximum
  | .inf | .negInf | .nan => False

instance (minimum maximum : ℤ) (value : Number) : Decidable (InBounds minimum maximum value) := by
  unfold InBounds
  cases value <;> infer_instance

/-- `s.rstrip("/")`. -/
def rstripSlash (s : Str) : Str := (s.reverse.dropWhile (· = .char '/')).reverse

/-- The settings, or the text of the `ConfigurationError`. -/
abbrev Configured (α : Type) := Except Str α

variable [Stdlib]

/-- `_number`, for bounds that are whole numbers. -/
def number (name : String) (raw : Option Str) (default : Number) (minimum maximum : ℤ)
    (h : InBounds minimum maximum default) :
    Configured { value : Number // InBounds minimum maximum value } :=
  match raw with
  | none => .ok ⟨default, h⟩
  | some raw =>
    if raw.strip = [] then .ok ⟨default, h⟩
    else
      match Stdlib.floatOfStr raw with
      | none => .error (.of (name ++ " must be a number"))
      | some value =>
        if h : InBounds minimum maximum value then .ok ⟨value, h⟩
        else .error (.of (name ++ " must be between " ++ toString minimum ++ ".0 and " ++
          toString maximum ++ ".0"))

/-- `_integer`. -/
def integer (name : String) (raw : Option Str) (default minimum maximum : ℤ)
    (h : minimum ≤ default ∧ default ≤ maximum) :
    Configured { value : ℤ // minimum ≤ value ∧ value ≤ maximum } :=
  have hdefault : InBounds minimum maximum (.finite default) :=
    ⟨Rat.intCast_le_intCast.mpr h.1, Rat.intCast_le_intCast.mpr h.2⟩
  match number name raw (.finite default) minimum maximum hdefault with
  | .error e => .error e
  | .ok ⟨.finite q, hq⟩ =>
    if hint : q.den = 1 then
      .ok ⟨q.num, by
        have hnum : (q.num : ℚ) = q := Rat.coe_int_num_of_den_eq_one hint
        rw [← hnum] at hq
        exact ⟨Rat.intCast_le_intCast.mp hq.1, Rat.intCast_le_intCast.mp hq.2⟩⟩
    else .error (.of (name ++ " must be an integer"))
  | .ok ⟨.negZero, hq⟩ => .ok ⟨0, hq⟩

/-- `PublisherSettings.from_environment`. -/
def fromEnvironment (environ : String → Option Str) : Configured PublisherSettings := do
  let eventServerUrl := rstripSlash ((environ "EVENTSERVER_URL").getD [])
  let token := (environ "PUBLISHER_TOKEN").getD []
  let ingress := ((environ "INGRESS_TOKEN").getD []).strip
  let host := ((environ "HTTP_HOST").getD (.of "0.0.0.0")).strip
  if ¬ (Str.of "http://" <+: eventServerUrl ∨ Str.of "https://" <+: eventServerUrl) then
    .error (.of "EVENTSERVER_URL must be an http(s) URL")
  else if token.length < 32 then
    .error (.of "PUBLISHER_TOKEN must contain at least 32 characters")
  else if ingress ≠ [] ∧ ingress.length < 16 then
    .error (.of "INGRESS_TOKEN must contain at least 16 characters")
  else do
    let httpPort ← integer "HTTP_PORT" (environ "HTTP_PORT") 8080 1 65535 (by decide)
    let defaultDelay ← integer "DEFAULT_DELAY_SECONDS" (environ "DEFAULT_DELAY_SECONDS") 300 0 86400
      (by decide)
    let maxDelay ← integer "MAX_DELAY_SECONDS" (environ "MAX_DELAY_SECONDS") 3600 60 86400
      (by decide)
    let timeout ← number "REQUEST_TIMEOUT_SECONDS" (environ "REQUEST_TIMEOUT_SECONDS")
      (.finite 10) 1 60 (by decide)
    let maxBody ← integer "MAX_BODY_BYTES" (environ "MAX_BODY_BYTES") 16384 256 1048576 (by decide)
    let key := (environ "DISPLAY_TIMEZONE").getD (.of "Asia/Shanghai")
    match Stdlib.zoneInfo key with
    | none => .error (.of "invalid DISPLAY_TIMEZONE: " ++ key)
    | some displayTimezone =>
      if h : defaultDelay.val ≤ maxDelay.val then
        .ok
          { eventServerUrl
            publisherToken := token
            ingressToken := if ingress = [] then none else some ingress
            httpHost := if host = [] then .of "0.0.0.0" else host
            httpPort := httpPort.val
            defaultDelaySeconds := defaultDelay.val
            maxDelaySeconds := maxDelay.val
            requestTimeoutSeconds := timeout.val
            maxBodyBytes := maxBody.val.toNat
            displayTimezone
            default_nonneg := defaultDelay.property.1
            default_le := h
            max_le := maxDelay.property.2
            body_bounds := by
              have hbody := maxBody.property
              omega }
      else .error (.of "DEFAULT_DELAY_SECONDS must not exceed MAX_DELAY_SECONDS")

end EventServer.DemoReminder
