import EventLens.GpuCalls
import EventLens.GpuLifecycle
import EventLens.GpuSweep
import EventLens.GpuStarts
import EventLens.GpuStops
import EventLens.GpuIdle
import EventLens.GpuTarget
import EventLens.AssetListing
import EventLens.ImportRecord
import EventLens.ImportService
import EventLens.Pools
import EventLens.ImportStages
import EventLens.ImportQueue
import EventLens.ImportLedger
import EventLens.ImportOverlap
import EventLens.ImportTally
import EventLens.ImportAccounting
import EventLens.ImportCancel
import EventLens.EventRecord
import EventLens.EventExpiry
import EventLens.ExpiryStages
import EventLens.PurgeNotice
import EventLens.PurgeRace
import EventLens.ParticipantRecord
import EventLens.ParticipantService
import EventLens.SelfieErasure
import EventLens.ParticipantStages
import EventLens.SelfieRace
import EventLens.MatchDigests
import EventLens.IngestRecord
import EventLens.IngestService
import EventLens.IngestStages
import EventLens.StorageKeys
import EventLens.IngestQuota
import EventLens.AuthRecord
import EventLens.AuthService
import EventLens.AuthScope
import EventLens.OrgClosure
import EventLens.FaceRecord
import EventLens.FaceService
import EventLens.FaceScope
import EventLens.FaceRows
import EventLens.FaceIsolation
import EventLens.FaceBoxes
import EventLens.FaceCleanup
import EventLens.FaceDetection
import EventLens.Clustering
import EventLens.FaceClustering
import EventLens.FaceReclustering
import EventLens.GalleryRecord
import EventLens.GalleryService
import EventLens.GalleryLinks
import EventLens.GalleryPrivacy
import EventLens.TenantRecord
import EventLens.TenantService
import EventLens.TenantLinks
import EventLens.TenantIsolation
import EventLens.EmailCadence
import EventLens.Relational
import EventLens.UsageFigures
import EventLens.OrgOwners
import EventLens.PasswordEviction
import EventLens.ResetLinks
import EventLens.LastWrite
import EventLens.NameRecord
import EventLens.NamesConverge
import EventLens.NamesFollow
import EventLens.NamesInOrder
import EventLens.NamesSteps
import EventLens.SubmissionRecord
import EventLens.SubmissionRace
import EventLens.MediaRecord
import EventLens.MediaService
import EventLens.AssetDeletion
import EventLens.GpuForecast
import EventLens.GpuHolds
import EventLens.PersonMerge
import EventLens.FaceReconcile
import EventLens.FaceRedetection
import EventLens.FaceRescaling
import EventLens.FaceMatches
import EventLens.Worklists
import EventLens.ImportWalk
import EventLens.Interference
import EventLens.UploadService
import EventLens.UploadTraces
import EventLens.UploadOutcomes
import EventLens.PlatformTotals
import EventLens.PlatformRuns
import EventLens.CloudAccounts
import EventLens.CloudCourses
import EventLens.CloudShelter
import EventLens.TransientFailures
import EventLens.JustifiedLayout
import EventLens.PhotoCrop
import EventLens.PhotoFacts
import EventLens.PhotoPipeline
import EventLens.PhotoSteps
import EventLens.PhotoWork
import EventLens.RateLimiter
import EventLens.ZipNames
import EventLens.ImportTypes
import EventLens.PlanChanges
import EventLens.PortraitCrop
import EventLens.DeliveryStatus
import EventLens.GpuStragglers
import EventLens.Scrolling
import EventLens.AuditTrail
import EventLens.AssetSweep
import EventLens.EventRemoval
import EventLens.PrefixCodes
import EventLens.BucketKeys
import EventLens.BucketDeletion
import EventLens.KeysetWalks
import EventLens.SmartSearch
import EventLens.QueueWalks
import EventLens.UploadPanel
import EventLens.UploadBatches
import EventLens.UploadOverlap
import EventLens.UploadSettling
import EventLens.AutoDismiss
import EventLens.Observing
import EventLens.IngestHands
import EventLens.IngestLedger
import EventLens.IngestOrphans
import EventLens.SignedReports
import EventLens.AuditRetention
import EventLens.ConnectedAccounts
