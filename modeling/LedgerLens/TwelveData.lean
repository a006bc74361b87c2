import LedgerLens.MarketDataPayloads
import LedgerLens.MarketDataRetries

namespace LedgerLens
variable {F : Type} [FloatDecimal F]

/-- What comes back from the request for a history: `none` stands for a body that is not JSON. -/
inductive HttpReply (F : Type) where
  | timeoutException
  | requestError
  | response (statusCode : Int) (payload : Option (Json F))

namespace TwelveData

def maxOutputSize : Nat := 5000

/-- `_raise_for_http_status` -/
def raiseForHttpStatus (statusCode : Int) (symbol : String) : Except Error Unit :=
  if statusCode = 429 then .error .marketDataRateLimit
  else if statusCode = 404 then .error (.marketDataNotFound symbol)
  else if 500 ≤ statusCode then .error .marketDataUnavailable
  else if 400 ≤ statusCode then .error (.marketDataInvalidResponse "provider rejected the history request")
  else .ok ()

/-- Values that have no hash. -/
def unhashable : Json F → Bool
  | .array _ | .object _ => true
  | _ => false

/-- What `_raise_for_provider_error` raises. -/
def providerError (payload : List (Json.Str × Json F)) (symbol : String) : Error :=
  let code := (Json.get? "code" payload).getD .null
  if code.eqInt 429 then .marketDataRateLimit
  else if unhashable code then .typeError
  else if code.eqInt 400 ∨ code.eqInt 404 then .marketDataNotFound symbol
  else if (Json.toInt? code).any fun n => 500 ≤ n then .marketDataUnavailable
  else .marketDataInvalidResponse "provider rejected the history request"

/-- `_nonempty_string`; code points that make no text hold more than space. -/
def nonemptyString : Json F → Bool
  | .string (.text s) => Text.strip s ≠ ""
  | .string (.broken _) => true
  | _ => false

/-- `_parse_session_date` -/
def parseSessionDate (rawValue : Json F) : Except Error Date :=
  match rawValue with
  | .string (.text s) =>
    match Date.fromisoformat s with
    | some date => .ok date
    | none => .error (.marketDataInvalidResponse "session date is invalid")
  | .string (.broken _) => .error (.marketDataInvalidResponse "session date is invalid")
  | _ => .error (.marketDataInvalidResponse "session date is missing")

variable [DigitDatabase]

/-- `_parse_adjusted_close` -/
def parseAdjustedClose (rawValue : Json F) (sessionDate : Date) : Except Error Decimal :=
  match rawValue with
  | .string s =>
    match (match s with | .text s => Decimal.parse s | .broken _ => none) with
    | none => .error (.marketDataInvalidResponse ("adjusted close is invalid for " ++ sessionDate.isoformat))
    | some price =>
      if ¬ price.isFinite ∨ price.value ≤ 0 then
        .error (.marketDataInvalidResponse ("adjusted close must be positive for " ++ sessionDate.isoformat))
      else .ok price
  | _ => .error (.marketDataInvalidResponse ("adjusted close is missing for " ++ sessionDate.isoformat))

/-- One pass of the loop in `_normalize_payload`; `seen_dates` are the dates of the bars so far. -/
def addRow (symbol : String) (startDate endDate : Date) (bars : List PriceBar) (row : Json F) :
    Except Error (List PriceBar) :=
  match row with
  | .object members => do
    let sessionDate ← parseSessionDate ((Json.get? "datetime" members).getD .null)
    if ¬ (startDate ≤ sessionDate ∧ sessionDate ≤ endDate) then return bars
    else if sessionDate ∈ bars.map PriceBar.date then
      .error (.marketDataInvalidResponse ("duplicate session date " ++ sessionDate.isoformat))
    else do
      let price ← parseAdjustedClose ((Json.get? "close" members).getD .null) sessionDate
      return bars ++ [⟨symbol, sessionDate, price⟩]
  | _ => .error (.marketDataInvalidResponse "price row is not an object")

/-- The exchange timezone of a payload. -/
def hasTimezone (payload : List (Json.Str × Json F)) : Bool :=
  match Json.get? "meta" payload with
  | some (.object metadata) => nonemptyString ((Json.get? "exchange_timezone" metadata).getD .null)
  | _ => false

/-- `_normalize_payload` -/
def normalizePayload (symbol : String) (startDate endDate : Date) (payload : Json F) : Except Error (List PriceBar) :=
  match payload with
  | .object payload =>
    let status := (Json.get? "status" payload).getD .null
    if status.eqText "error" then .error (providerError payload symbol)
    else if ¬ status.eqText "ok" then .error (.marketDataInvalidResponse "provider status is missing or invalid")
    else if ¬ hasTimezone payload then .error (.marketDataInvalidResponse "exchange timezone is missing")
    else match Json.get? "values" payload with
      | some (.array values) =>
        if maxOutputSize ≤ values.length then
          .error (.marketDataInvalidResponse "provider response may be truncated at the 5000-point limit")
        else do
          let bars ← values.foldlM (addRow symbol startDate endDate) []
          if bars = [] then .error (.marketDataNotFound symbol)
          else .ok (StableSort.sortOn PriceBar.date bars)
      | _ => .error (.marketDataInvalidResponse "price values are missing")
  | _ => .error (.marketDataInvalidResponse "expected a JSON object")

/-- `get_price_bars` of a `TwelveDataMarketDataProvider`, given the reply to its request. -/
def getPriceBars [UnicodeDatabase] (reply : HttpReply F) : MarketData := fun symbol startDate endDate =>
  let normalizedSymbol := Text.upper (Text.strip symbol)
  if normalizedSymbol = "" then .error (.marketDataNotFound normalizedSymbol)
  else if endDate < startDate then .error (.valueError "start_date must not be after end_date")
  else match reply with
    | .timeoutException => .error .marketDataTimeout
    | .requestError => .error .marketDataUnavailable
    | .response statusCode payload => do
      raiseForHttpStatus statusCode normalizedSymbol
      match payload with
      | none => .error (.marketDataInvalidResponse "provider response is not JSON")
      | some payload => do
        let priceBars ← normalizePayload normalizedSymbol startDate endDate payload
        return { priceBars := priceBars }

section Soundness
variable {symbol : String} {startDate endDate : Date} {bars : List PriceBar}

omit [FloatDecimal F] in
theorem parseAdjustedClose_eq_ok {rawValue : Json F} {sessionDate : Date} {price : Decimal}
    (parsed : parseAdjustedClose rawValue sessionDate = .ok price) : price.isFinite ∧ 0 < price.value := by
  unfold parseAdjustedClose at parsed
  split at parsed
  · split at parsed
    · cases parsed
    · obtain ⟨passed, parsed⟩ := Checked.guard_eq_ok.mp parsed
      cases parsed
      simpa only [not_or, not_not, not_le] using passed
  · cases parsed

omit [FloatDecimal F] in
theorem addRow_eq_ok {row : Json F} {next : List PriceBar}
    (added : addRow symbol startDate endDate bars row = .ok next) :
    next = bars ∨ ∃ date price, next = bars ++ [⟨symbol, date, price⟩] ∧ date ∉ bars.map PriceBar.date ∧
      (startDate ≤ date ∧ date ≤ endDate) ∧ price.isFinite ∧ 0 < price.value := by
  cases row with
  | object members =>
    obtain ⟨date, _, added⟩ := Checked.bind_eq_ok.mp added
    split at added
    · exact .inl (Checked.pure_eq_ok.mp added).symm
    · next inRange =>
      obtain ⟨fresh, added⟩ := Checked.guard_eq_ok.mp added
      obtain ⟨price, parsed, added⟩ := Checked.bind_eq_ok.mp added
      exact .inr ⟨date, price, (Checked.pure_eq_ok.mp added).symm, fresh, not_not.mp inRange,
        parseAdjustedClose_eq_ok parsed⟩
  | _ => cases added

/-- Whatever the vendor sends, what is made of it is a series of the query. -/
theorem normalizePayload_sound {payload : Json F}
    (normalized : normalizePayload symbol startDate endDate payload = .ok bars) :
    SoundBars symbol startDate endDate bars := by
  unfold normalizePayload at normalized
  split at normalized
  · obtain ⟨_, normalized⟩ := Checked.guard_eq_ok.mp normalized
    obtain ⟨_, normalized⟩ := Checked.guard_eq_ok.mp normalized
    obtain ⟨_, normalized⟩ := Checked.guard_eq_ok.mp normalized
    split at normalized
    · obtain ⟨_, normalized⟩ := Checked.guard_eq_ok.mp normalized
      obtain ⟨found, run, normalized⟩ := Checked.bind_eq_ok.mp normalized
      obtain ⟨nonempty, normalized⟩ := Checked.guard_eq_ok.mp normalized
      cases normalized
      have admitted : AdmittedBars symbol startDate endDate found := by
        refine Checked.foldlM_prefix_invariant (fun _ bars => AdmittedBars symbol startDate endDate bars)
          (.nil symbol startDate endDate) run ?_
        intro _ row _ bars next _ kept step
        rcases addRow_eq_ok step with rfl | ⟨date, price, rfl, fresh, inRange, isFinite, positive⟩
        · exact kept
        · exact kept.snoc fresh inRange isFinite positive
      exact admitted.sorted nonempty
    · cases normalized
  · cases normalized

/-- What the adapter returns is a series of the symbol it normalizes to. -/
theorem getPriceBars_sound [UnicodeDatabase] {reply : HttpReply F} {result : MarketDataResult}
    (returned : getPriceBars reply symbol startDate endDate = .ok result) :
    SoundBars (Text.upper (Text.strip symbol)) startDate endDate result.priceBars := by
  simp only [getPriceBars] at returned
  obtain ⟨_, returned⟩ := Checked.guard_eq_ok.mp returned
  obtain ⟨_, returned⟩ := Checked.guard_eq_ok.mp returned
  split at returned
  · cases returned
  · cases returned
  · obtain ⟨_, _, returned⟩ := Checked.bind_eq_ok.mp returned
    split at returned
    · cases returned
    · obtain ⟨bars, normalized, returned⟩ := Checked.bind_eq_ok.mp returned
      cases Checked.pure_eq_ok.mp returned
      exact normalizePayload_sound normalized

end Soundness
end TwelveData
end LedgerLens
