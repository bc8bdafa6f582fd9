import QueryTemplate.Proofs.Accounting
import QueryTemplate.Proofs.BracePairs
import QueryTemplate.Proofs.CanonicalInteger
import QueryTemplate.Proofs.Classification
import QueryTemplate.Proofs.Confinement
import QueryTemplate.Proofs.Counting
import QueryTemplate.Proofs.Cuts
import QueryTemplate.Proofs.DecimalNumeral
import QueryTemplate.Proofs.DecimalRounding
import QueryTemplate.Proofs.Escaping
import QueryTemplate.Proofs.ExactValue
import QueryTemplate.Proofs.Failures
import QueryTemplate.Proofs.FloatText
import QueryTemplate.Proofs.Forgery
import QueryTemplate.Proofs.History
import QueryTemplate.Proofs.Inserted
import QueryTemplate.Proofs.Isolation
import QueryTemplate.Proofs.LastRegistration
import QueryTemplate.Proofs.Layout
import QueryTemplate.Proofs.LeadingNumber
import QueryTemplate.Proofs.ListReading
import QueryTemplate.Proofs.Literal
import QueryTemplate.Proofs.Logging
import QueryTemplate.Proofs.Magnitude
import QueryTemplate.Proofs.NearestRank
import QueryTemplate.Proofs.Nonce
import QueryTemplate.Proofs.NumberText
import QueryTemplate.Proofs.NumeralGrammar
import QueryTemplate.Proofs.OneLevel
import QueryTemplate.Proofs.Replaced
import QueryTemplate.Proofs.Rounding
import QueryTemplate.Proofs.SameNumber
import QueryTemplate.Proofs.SettingsReading
import QueryTemplate.Proofs.Slot
import QueryTemplate.Proofs.SpelledInteger
import QueryTemplate.Proofs.Token
import QueryTemplate.Proofs.Woven
import QueryTemplate.Session
