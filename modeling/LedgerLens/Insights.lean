import LedgerLens.Models
import LedgerLens.Library.FloatArithmetic

namespace LedgerLens
open FloatArithmetic

def rulesVersion : String := "risk-rules-v1"

def disclaimer : String := "For informational purposes only; not investment advice."

def forbiddenWords : List String := ["buy", "sell", "purchase", "liquidate", "guarantee", "guaranteed"]

/-- A lower-case ASCII letter of a pattern against a character, without regard to case; the long s
and the Turkish i's fold to ASCII letters. -/
def matchesIgnoringCase (letter c : Char) : Bool :=
  c.toLower = letter || (letter = 's' && c.toNat = 0x17f) ||
    (letter = 'i' && (c.toNat = 0x130 || c.toNat = 0x131))

/-- What is left after a word has been matched at the front, with the last character matched. -/
def matchWord : List Char → Option Char → List Char → Option (Option Char × List Char)
  | [], last, rest => some (last, rest)
  | _ :: _, _, [] => none
  | letter :: letters, _, c :: rest =>
    if matchesIgnoringCase letter c then matchWord letters (some c) rest else none

section Words
variable [UnicodeDatabase]

def isWordChar (c : Char) : Bool := UnicodeDatabase.isAlnum c || c = '_'

/-- The `\b` of a pattern, between two neighbouring characters. -/
def wordBoundary (before after : Option Char) : Bool := before.any isWordChar != after.any isWordChar

/-- `_FORBIDDEN_RECOMMENDATION.search`, with the character before the text that is left. -/
def searchForbidden (before : Option Char) : List Char → Bool
  | [] => false
  | c :: rest =>
    (wordBoundary before (some c) && forbiddenWords.any fun word =>
      match matchWord word.toList before (c :: rest) with
      | some (last, after) => wordBoundary last after.head?
      | none => false) ||
    searchForbidden (some c) rest

def validateGeneratedInsight (generated : GeneratedInsight) : Except Error Unit :=
  if ¬ (20 ≤ (Text.strip generated.summary).length ∧ (Text.strip generated.summary).length ≤ 1200) then
    .error (.valueError "generated insight summary length is invalid")
  else if 3 < generated.additionalLimitations.length ∨
      generated.additionalLimitations.any fun limitation => Text.strip limitation = "" then
    .error (.valueError "generated insight limitations are invalid")
  else if searchForbidden none
      (" ".intercalate (generated.summary :: generated.additionalLimitations)).toList then
    .error (.valueError "generated insight contains transaction language")
  else .ok ()

end Words

variable {F : Type} [FloatArithmetic F]

/-- One factor of the risk rules: its score and its text. -/
abbrev Factor := Nat × String

def volatilityFactor (volatility : Option F) : Factor :=
  match volatility with
  | none => (0, "Annualized volatility is unavailable because the return history is insufficient.")
  | some volatility =>
    if le (ofRat (30 / 100)) volatility then
      (2, "Annualized volatility is high at " ++ percent volatility ++ ".")
    else if le (ofRat (15 / 100)) volatility then
      (1, "Annualized volatility is elevated at " ++ percent volatility ++ ".")
    else (0, "Annualized volatility is lower at " ++ percent volatility ++ ".")

def drawdownFactor (drawdown : Option F) : Factor :=
  match drawdown with
  | none => (0, "Maximum drawdown is unavailable because the return history is insufficient.")
  | some drawdown =>
    if le drawdown (ofRat (-25 / 100)) then
      (2, "Maximum historical drawdown is severe at " ++ percent drawdown ++ ".")
    else if le drawdown (ofRat (-10 / 100)) then
      (1, "Maximum historical drawdown is material at " ++ percent drawdown ++ ".")
    else (0, "Maximum historical drawdown is limited at " ++ percent drawdown ++ ".")

def sharpeFactor (sharpeRatio : Option F) : Factor :=
  match sharpeRatio with
  | none => (0, "Sharpe ratio is unavailable because returns are insufficient or volatility is zero.")
  | some sharpeRatio =>
    if lt sharpeRatio (ofRat 0) then
      (1, "Historical Sharpe ratio is negative at " ++ fixed sharpeRatio ++ ".")
    else if lt sharpeRatio (ofRat 1) then
      (0, "Historical Sharpe ratio is below 1 at " ++ fixed sharpeRatio ++ ".")
    else (0, "Historical Sharpe ratio is at least 1 at " ++ fixed sharpeRatio ++ ".")

/-- The first of the largest weights. -/
def largestWeight : List AssetWeight → Option AssetWeight
  | [] => none
  | weight :: rest =>
    some (rest.foldl (fun largest weight => if largest.weight < weight.weight then weight else largest) weight)

variable (F) in
def concentrationFactor (assetWeights : List AssetWeight) : Factor :=
  match largestWeight assetWeights with
  | none =>
    (0, "Security concentration is unavailable because no latest asset weights were produced.")
  | some largest =>
    let concentration : F := ofRat largest.weight
    let (score, label) : Nat × String :=
      if le (ofRat (50 / 100)) concentration then (2, "high")
      else if le (ofRat (25 / 100)) concentration then (1, "elevated")
      else (0, "lower")
    (score, "Latest single-security concentration is " ++ label ++ ": " ++ largest.symbol ++
      " represents " ++ percent concentration ++ " of total portfolio value.")

def riskLevelOf (score : Nat) (metrics : List (Option F)) : RiskLevel :=
  if metrics.all Option.isNone then .insufficientData
  else if 4 ≤ score then .high
  else if 2 ≤ score then .moderate
  else .low

def deterministicLimitations (analytics : PortfolioAnalytics F) : List String :=
  let methodology := analytics.methodology
  ["The metrics use historical adjusted-close data and do not forecast future prices or returns.",
    "Volatility and Sharpe use " ++ toString methodology.annualizationPeriods ++ " annual periods; " ++
      "Sharpe assumes an annual risk-free rate of " ++ methodology.annualRiskFreeRate.str ++ " as of " ++
      methodology.riskFreeRateAsOf.isoformat ++ ".",
    "Concentration uses latest security weights relative to total portfolio value including cash; " ++
      "it does not measure sectors, correlations, liquidity, or issuer relationships."] ++
  (if [analytics.annualizedVolatility, analytics.maxDrawdown, analytics.sharpeRatio].any Option.isNone then
    ["At least one statistical metric is unavailable; conclusions from the available history are limited."]
  else []) ++
  (if analytics.stale then
    ["The analysis used an explicitly stale retained market-data response."]
  else [])

def generateDeterministicInsight (analytics : PortfolioAnalytics F) : PortfolioInsight :=
  let factors := [volatilityFactor analytics.annualizedVolatility, drawdownFactor analytics.maxDrawdown,
    sharpeFactor analytics.sharpeRatio, concentrationFactor F analytics.assetWeights]
  let score := (factors.map Prod.fst).sum
  let riskLevel := riskLevelOf score
    [analytics.annualizedVolatility, analytics.maxDrawdown, analytics.sharpeRatio]
  { asOf := analytics.asOf
    riskLevel := riskLevel
    summary := "Historical rule-based risk level: " ++ riskLevel.value ++
      ". This classification summarizes adverse signals in the supplied metrics and is not a forecast."
    keyFactors := factors.map Prod.snd
    limitations := deterministicLimitations analytics
    disclaimer := disclaimer
    generator := "deterministic_rules"
    modelName := none
    promptVersion := rulesVersion
    stale := analytics.stale }

end LedgerLens
