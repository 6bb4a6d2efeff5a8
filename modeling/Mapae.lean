import Mapae.Properties.SettlementBudget
import Mapae.Properties.SettlementJournal
import Mapae.Properties.SettlementRecovery
import Mapae.Properties.Outcome
import Mapae.Properties.ScheduleSlots
import Mapae.Properties.PaymentIdentifiers
import Mapae.Properties.Retention
import Mapae.Properties.SharedLanguage
import Mapae.Properties.SignInSessions
import Mapae.Properties.SpendGate
import Mapae.Properties.GuardianOwnership
import Mapae.Properties.GuardianPool
import Mapae.Properties.GuardianBirths
import Mapae.Properties.GuardianClaims
import Mapae.Properties.FaucetPayments
import Mapae.Properties.PolicyOracle
import Mapae.Properties.LifetimeTotals
import Mapae.Properties.ArcadeAdmissions
import Mapae.Properties.StampAccounts
import Mapae.Properties.Streaks
import Mapae.Properties.RateLimits
import Mapae.Properties.FaucetLimits
import Mapae.Properties.UsdcAuthorizations
import Mapae.Properties.CumulativeHonors
import Mapae.Properties.GrantLedger
import Mapae.Properties.OutingRounds
import Mapae.Properties.SponsoredRevocations
import Mapae.Properties.SettlementReceipts
import Mapae.Properties.PreflightJudgement
import Mapae.Properties.OfferAgreement
import Mapae.Properties.SharedReadings
import Mapae.Properties.BucketSpellings
import Mapae.Properties.PngRoundTrip
import Mapae.Properties.ArcadeReload
import Mapae.Properties.OneCalendar
import Mapae.Properties.RaceFairness
import Mapae.Properties.RuleBots
import Mapae.Properties.SeasonHalls
import Mapae.Properties.BoardPages
import Mapae.Properties.TokenAmounts
import Mapae.Store.Tickets
import Mapae.Properties.ScheduledPayments
