import Prewarm.Base64
import Prewarm.Bytes
import Prewarm.CacheSync
import Prewarm.Cluster.Address
import Prewarm.Cluster.Calls
import Prewarm.Cluster.Error
import Prewarm.Cluster.Recorder
import Prewarm.Cluster.Request
import Prewarm.Cluster.Watch
import Prewarm.Config
import Prewarm.Controller
import Prewarm.DaemonSet
import Prewarm.DaemonSet.Json
import Prewarm.Decimal
import Prewarm.Dialogue
import Prewarm.Expectations
import Prewarm.Generation
import Prewarm.Health
import Prewarm.Image.Pin
import Prewarm.Image.Reference
import Prewarm.Json
import Prewarm.Json.Draft
import Prewarm.Json.Reader
import Prewarm.Json.Shape
import Prewarm.Json.Tagged
import Prewarm.Json.Writer
import Prewarm.Key
import Prewarm.Main
import Prewarm.Metadata
import Prewarm.Metadata.Json
import Prewarm.Pod.Basic
import Prewarm.Pod.Container
import Prewarm.Pod.Template
import Prewarm.Pod.Volume
import Prewarm.Pool
import Prewarm.Proofs.Base64
import Prewarm.Proofs.CacheSync
import Prewarm.Proofs.Controller.Clock
import Prewarm.Proofs.Controller.Gate
import Prewarm.Proofs.Controller.Run
import Prewarm.Proofs.Engine.Backoff
import Prewarm.Proofs.Engine.NoLoss
import Prewarm.Proofs.Engine.Run
import Prewarm.Proofs.Expectations
import Prewarm.Proofs.Image.Grammar
import Prewarm.Proofs.Image.RoundTrip
import Prewarm.Proofs.Key
import Prewarm.Proofs.Limiter
import Prewarm.Proofs.Limiter.Doubling
import Prewarm.Proofs.Pool.Assigned
import Prewarm.Proofs.Pool.Attentive
import Prewarm.Proofs.Pool.Discipline
import Prewarm.Proofs.Pool.Drain
import Prewarm.Proofs.Pool.Effort
import Prewarm.Proofs.Pool.Getters
import Prewarm.Proofs.Pool.Heard
import Prewarm.Proofs.Pool.Kept
import Prewarm.Proofs.Pool.Outcomes
import Prewarm.Proofs.Pool.Run
import Prewarm.Proofs.Pool.Sound
import Prewarm.Proofs.Pool.Tasks
import Prewarm.Proofs.Reconcile.Children
import Prewarm.Proofs.Reconcile.Cleanup
import Prewarm.Proofs.Reconcile.Convergence
import Prewarm.Proofs.Reconcile.Course
import Prewarm.Proofs.Reconcile.Effects
import Prewarm.Proofs.Reconcile.Exchanges
import Prewarm.Proofs.Reconcile.Fleet
import Prewarm.Proofs.Reconcile.Healing
import Prewarm.Proofs.Reconcile.Interleaving
import Prewarm.Proofs.Reconcile.Lineage
import Prewarm.Proofs.Reconcile.OneChild
import Prewarm.Proofs.Reconcile.Retry
import Prewarm.Proofs.Reconcile.Run
import Prewarm.Proofs.Reconcile.Secrecy
import Prewarm.Proofs.Reflector.LastWrite
import Prewarm.Proofs.Reflector.Mirror
import Prewarm.Proofs.Reflector.Pacing
import Prewarm.Proofs.Reflector.Server
import Prewarm.Proofs.Registry.Challenge
import Prewarm.Proofs.Registry.Dialogue
import Prewarm.Proofs.Registry.Digest
import Prewarm.Proofs.Registry.Encryption
import Prewarm.Proofs.Registry.LoginEntry
import Prewarm.Proofs.Registry.Protocol
import Prewarm.Proofs.Registry.PullSecrets
import Prewarm.Proofs.Registry.Spellings
import Prewarm.Proofs.Store.Contents
import Prewarm.Proofs.Store.Filing
import Prewarm.Proofs.Store.Log
import Prewarm.Proofs.Store.Resync
import Prewarm.Proofs.Store.Writes
import Prewarm.Proofs.Text.Numeral
import Prewarm.Proofs.Text.Octets
import Prewarm.Proofs.Transcript
import Prewarm.Proofs.WorkQueue.Additions
import Prewarm.Proofs.WorkQueue.Exclusive
import Prewarm.Proofs.WorkQueue.Operations
import Prewarm.Proofs.WorkQueue.Order
import Prewarm.Proofs.WorkQueue.Pending
import Prewarm.Proofs.WorkQueue.Reruns
import Prewarm.Proofs.WorkQueue.Run
import Prewarm.Proofs.WorkQueue.ShutDown
import Prewarm.Proofs.WorkQueue.Timely
import Prewarm.Proofs.WorkQueue.Timer
import Prewarm.Proofs.WorkQueue.Wakeful
import Prewarm.RateLimit
import Prewarm.Reconcile
import Prewarm.Reflector
import Prewarm.Registry.Challenge
import Prewarm.Registry.Login
import Prewarm.Registry.PullSecret
import Prewarm.Registry.Resolver
import Prewarm.Registry.Status
import Prewarm.Rehearsal.Api
import Prewarm.Rehearsal.Follower
import Prewarm.Rehearsal.Play
import Prewarm.Rehearsal.Stage
import Prewarm.Rehearsal.World
import Prewarm.Scheme
import Prewarm.Scheme.Json
import Prewarm.Selector
import Prewarm.Sha256
import Prewarm.Sleeper.Landing
import Prewarm.Sleeper.Options
import Prewarm.Store
import Prewarm.Store.Enqueue
import Prewarm.Store.Select
import Prewarm.Table
import Prewarm.Text.Blank
import Prewarm.Text.Numeral
import Prewarm.Text.Quoted
import Prewarm.Text.Split
import Prewarm.Text.Unshown
import Prewarm.Time
import Prewarm.Time.Calendar
import Prewarm.Time.Seconds
import Prewarm.WarmImage
import Prewarm.WarmImage.Document
import Prewarm.WarmImage.Manifest
import Prewarm.WorkQueue
import Prewarm.WorkQueue.Outcome
import Prewarm.WorkQueue.Wakeups
import Prewarm.Yaml
