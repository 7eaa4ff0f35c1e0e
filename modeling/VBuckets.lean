import VBuckets.InterleavingProofs
import VBuckets.ThreadProofs
import VBuckets.ByteStringProofs
import VBuckets.RuneProofs
import VBuckets.TrimProofs
import VBuckets.LocalCacheProofs
import VBuckets.UrlProofs
import VBuckets.DomainProofs
import VBuckets.ReorderProofs
import VBuckets.JsonProofs
import VBuckets.IamProofs
import VBuckets.MappingProofs
import VBuckets.ClientProofs
import VBuckets.WatchProofs
import VBuckets.LoadGroupProofs
import VBuckets.CoalescingProofs
import VBuckets.RecencyProofs
import VBuckets.AdmissionProofs
import VBuckets.LookupProofs
import VBuckets.SystemProofs
import VBuckets.ReadinessProofs
import VBuckets.FaultProofs
import VBuckets.StampProofs
import VBuckets.CallProofs
import VBuckets.CatchUpProofs
import VBuckets.LogProofs
import VBuckets.RegistryProofs
import VBuckets.FreshnessProofs
import VBuckets.TimeProofs
import VBuckets.CalendarProofs
import VBuckets.StrconvProofs
import VBuckets.UrlRoundTripProofs
import VBuckets.HeaderProofs
import VBuckets.GrammarProofs
import VBuckets.PolicyProofs
import VBuckets.PolicyMeaningProofs
import VBuckets.PolicyOrderProofs
import VBuckets.HeaderRulesProofs
import VBuckets.PlanProofs
import VBuckets.MatrixProofs
import VBuckets.NormalizationProofs
import VBuckets.OutboundProofs
import VBuckets.ForwardingProofs
import VBuckets.TokenProofs
import VBuckets.PathProofs
import VBuckets.TenancyProofs
import VBuckets.CoverageProofs
import VBuckets.HeaderForwardingProofs
import VBuckets.ConditionProofs
import VBuckets.SignatureProofs
import VBuckets.AuthorizationProofs
import VBuckets.CanonicalProofs
import VBuckets.SigningProofs
import VBuckets.MiddlewareProofs
import VBuckets.TransplantProofs
import VBuckets.XmlProofs
import VBuckets.ResponseProofs
import VBuckets.RewriteProofs
import VBuckets.ConfinementProofs
import VBuckets.WellFormedProofs
import VBuckets.ListingProofs
import VBuckets.WirePathProofs
import VBuckets.ClockSkewProofs
import VBuckets.TargetProofs
import VBuckets.RegexpProofs
import VBuckets.WildcardProofs
import VBuckets.UpstreamProofs
import VBuckets.ResultHeaderProofs
import VBuckets.VirtualizationProofs
import VBuckets.LruProofs
import VBuckets.HeaderValueProofs
import VBuckets.SpellingProofs
import VBuckets.CopySourceProofs
import VBuckets.HostProofs
import VBuckets.SimulationProofs
import VBuckets.SupervisionProofs
import VBuckets.WatchdogProofs
import VBuckets.DeadlineProofs
import VBuckets.BackoffProofs
import VBuckets.StoreProofs
import VBuckets.PrivateBucketProofs
