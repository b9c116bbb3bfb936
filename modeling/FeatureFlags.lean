import FeatureFlags.Json.Writer
import FeatureFlags.Proofs.Agreement
import FeatureFlags.Proofs.Concurrent.Convergence
import FeatureFlags.Proofs.Concurrent.Creation
import FeatureFlags.Proofs.Concurrent.Orphans
import FeatureFlags.Proofs.Concurrent.Race
import FeatureFlags.Proofs.Containment
import FeatureFlags.Proofs.Disclosure
import FeatureFlags.Proofs.Failure
import FeatureFlags.Proofs.Flag.ReadBack
import FeatureFlags.Proofs.History.Balance
import FeatureFlags.Proofs.History.Keys
import FeatureFlags.Proofs.History.Times
import FeatureFlags.Proofs.History.Validity
import FeatureFlags.Proofs.Http.Paths
import FeatureFlags.Proofs.Paging
import FeatureFlags.Proofs.Resync
import FeatureFlags.Proofs.Rule.BooleanAlgebra
import FeatureFlags.Proofs.Rule.Extremes
import FeatureFlags.Proofs.Rule.Grammar
import FeatureFlags.Proofs.Rule.IntegerArithmetic
import FeatureFlags.Proofs.Rule.Membership
import FeatureFlags.Proofs.Rule.StrictEquality
import FeatureFlags.Service.Basic
import FeatureFlags.Settings.Basic
import FeatureFlags.Store.Opening
