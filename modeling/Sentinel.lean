import Sentinel.Api.Accounting
import Sentinel.Api.Campaigns
import Sentinel.Multimodal.Loaded
import Sentinel.Api.ReviewMetrics
import Sentinel.Distributed.Delivery
import Sentinel.Distributed.Finished
import Sentinel.Distributed.Queued
import Sentinel.Distributed.Recovery
import Sentinel.Distributed.Retries
import Sentinel.Distributed.Content
import Sentinel.Distributed.Verdicts
import Sentinel.Distributed.Refinement
import Sentinel.Review.AuditTrail
import Sentinel.Review.Auth
import Sentinel.Review.Feedback
import Sentinel.Review.HeadHash
import Sentinel.Review.OneCase
import Sentinel.Review.Reading
import Sentinel.Review.Restart
import Sentinel.Review.Tamper
import Sentinel.Review.TornAppend
import Sentinel.Core.Normalization
import Sentinel.Core.NormalForm
import Sentinel.Core.Rules
import Sentinel.Core.Replay
import Sentinel.Core.Spelling
import Sentinel.Evaluation.Attacks
import Sentinel.Evaluation.Robustness
import Sentinel.Evaluation.Ensemble
import Sentinel.Evaluation.Gates
import Sentinel.Multimodal.Fusion
import Sentinel.Multimodal.Jpeg
import Sentinel.Multimodal.NoTrace
import Sentinel.Multimodal.Png
import Sentinel.Multimodal.Webp
import Sentinel.Observability.Counters
import Sentinel.Security.Admission
import Sentinel.Security.Bounded
import Sentinel.Security.Budget
import Sentinel.Security.Conformance
import Sentinel.Security.Dispatch
import Sentinel.Security.Responses
import Sentinel.Security.Config
import Sentinel.Security.Pruning
import Sentinel.Security.RetryAfter
import Sentinel.Security.Sbom
import Sentinel.ThreatIntelligence.Campaign
import Sentinel.Api.Jobs
import Sentinel.Distributed.DeadLetters
