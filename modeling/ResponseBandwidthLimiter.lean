import ResponseBandwidthLimiter.Backends.Memory.KeyEviction
import ResponseBandwidthLimiter.Backends.Memory.Representation
import ResponseBandwidthLimiter.Backends.Memory.RetryAfter
import ResponseBandwidthLimiter.Backends.Memory.RuleOrder
import ResponseBandwidthLimiter.Backends.Redis.Fallback
import ResponseBandwidthLimiter.Backends.Redis.RetryAfter
import ResponseBandwidthLimiter.ClientIdentity
import ResponseBandwidthLimiter.Middleware.Deployments
import ResponseBandwidthLimiter.Middleware.Drain
import ResponseBandwidthLimiter.Middleware.FleetLimits
import ResponseBandwidthLimiter.Middleware.Gatehouse
import ResponseBandwidthLimiter.Middleware.Lifespan
import ResponseBandwidthLimiter.Middleware.Lives
import ResponseBandwidthLimiter.Middleware.Suppression
import ResponseBandwidthLimiter.PolicyCounters
import ResponseBandwidthLimiter.Routing
import ResponseBandwidthLimiter.Streaming.Abort
