import Hooktrace.Fencing
import Hooktrace.IdempotencyKeys
import Hooktrace.AttemptBudget
import Hooktrace.SingleFlight
import Hooktrace.Backoff
import Hooktrace.ForwardStore
import Hooktrace.ErrorPaths
import Hooktrace.Requeue
import Hooktrace.CommitOrder
import Hooktrace.RetryPolicy
import Hooktrace.Listing
import Hooktrace.ExpiryCleanup
import Hooktrace.ConfigUpdates
import Hooktrace.ConfigScope
import Hooktrace.TokenScope
import Hooktrace.SignatureValidation
import Hooktrace.BodyFidelity
import Hooktrace.ColumnDomains
import Hooktrace.CaptureTransaction
import Hooktrace.Pagination
import Hooktrace.SlidingWindow
import Hooktrace.RateLimitRecovery
import Hooktrace.Notifier
import Hooktrace.LiveStream
import Hooktrace.ExportRequests
import Hooktrace.ReplayAudit
import Hooktrace.RequestCount
import Hooktrace.CustomResponse
import Hooktrace.SignatureHeaders
import Hooktrace.AbuseAlert
import Hooktrace.TargetContract
import Hooktrace.HeaderAuthority
import Hooktrace.OutboundSignature
import Hooktrace.CopyAsCurl
import Hooktrace.CopiedUrl
import Hooktrace.SseFrame
import Hooktrace.VanitySlug
import Hooktrace.LocalBlobStorage
import Hooktrace.IntegrationAggregates
import Hooktrace.BodyText
import Hooktrace.Quota
import Hooktrace.RowDataset
import Hooktrace.ForwardStats
import Hooktrace.OutcomeColumns
import Hooktrace.BlobBodies
import Hooktrace.CaptureHandler
import Hooktrace.ConfigProvenance
import Hooktrace.OutboundRequests
import Hooktrace.RedriveRecovery
import Hooktrace.FormEncoding
