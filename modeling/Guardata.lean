import Guardata.ToMathlib.ByteInteger
import Guardata.ToMathlib.CharLists
import Guardata.ToMathlib.Dict
import Guardata.ToMathlib.Except
import Guardata.ToMathlib.Parity
import Guardata.ToMathlib.Sequence
import Guardata.ToMathlib.RecencyCache
import Guardata.ToMathlib.SortedBy
import Guardata.ToMathlib.UniqueKeys
import Guardata.Machine.Coroutine
import Guardata.Machine.Discipline
import Guardata.Machine.Run
import Guardata.Model.SignedData
import Guardata.Model.Realm
import Guardata.Model.Vlob
import Guardata.Model.VlobRequests
import Guardata.Model.RemoteLoader
import Guardata.Model.Server
import Guardata.Model.FolderMerge
import Guardata.Model.FolderManifest
import Guardata.Model.FolderSync
import Guardata.Model.EntryTransactions
import Guardata.Model.UserManifest
import Guardata.Model.Invite
import Guardata.Model.InviteSession
import Guardata.Model.Trustchain
import Guardata.Model.FileManifest
import Guardata.Model.FileOperations
import Guardata.Model.FileTransactions
import Guardata.Model.FileSync
import Guardata.Model.ByteFile
import Guardata.Model.SignedClasses
import Guardata.Model.Handshake
import Guardata.Model.UserComponent
import Guardata.Model.UserRequests
import Guardata.Model.Raid5
import Guardata.Model.Block
import Guardata.Model.Reencryption
import Guardata.Model.Postgres
import Guardata.Proofs.RealmRoles
import Guardata.Proofs.RoleReplay
import Guardata.Proofs.VlobAccess
import Guardata.Proofs.FolderMerge
import Guardata.Proofs.FolderManifest
import Guardata.Proofs.FolderFilter
import Guardata.Proofs.FolderSync
import Guardata.Proofs.EntryTransactions
import Guardata.Proofs.UserManifest
import Guardata.Proofs.Invite
import Guardata.Proofs.Trustchain
import Guardata.Proofs.TrustchainLoads
import Guardata.Proofs.UserComponent
import Guardata.Proofs.UserRequests
import Guardata.Proofs.Raid5
import Guardata.Proofs.Reencryption
import Guardata.Proofs.Postgres
import Guardata.Proofs.ChunkList
import Guardata.Proofs.FileLayout
import Guardata.Proofs.FileIntegrity
import Guardata.Proofs.FileOperations
import Guardata.Proofs.FileTransactions
import Guardata.Proofs.FileAccess
import Guardata.Proofs.FileDiscipline
import Guardata.Proofs.FileSync
import Guardata.Soundness.RealmAuthority
import Guardata.Soundness.RoleAgreement
import Guardata.Soundness.ManifestReadability
import Guardata.Soundness.MergeLosesNothing
import Guardata.Soundness.UnsyncedChanges
import Guardata.Soundness.UploadedNames
import Guardata.Soundness.FilterChanges
import Guardata.Soundness.ForgottenChanges
import Guardata.Soundness.ConduitAgreement
import Guardata.Soundness.InviteSessions
import Guardata.Soundness.HandshakeOracle
import Guardata.Soundness.RaidReads
import Guardata.Soundness.RaidCodec
import Guardata.Soundness.ReencryptionVersions
import Guardata.Soundness.TrustchainAuthority
import Guardata.Soundness.FileRefinement
import Guardata.Soundness.UploadedBlocks
import Guardata.Soundness.RoleHistories
import Guardata.Soundness.VlobRealms
import Guardata.Soundness.VlobHistories
import Guardata.Soundness.PollChanges
import Guardata.Soundness.BlockOwnership
import Guardata.Soundness.ActiveEmails
import Guardata.Soundness.ServedTrustchains
import Guardata.Model.ManifestStorage
import Guardata.Proofs.ManifestStorage
import Guardata.Soundness.ManifestCoherence
import Guardata.Proofs.EntryNames
import Guardata.Soundness.MergeTotality
import Guardata.Soundness.MergeIdentities
import Guardata.Soundness.FilterIdempotence
import Guardata.Soundness.RemoteRoundTrip
import Guardata.Model.BlockCache
import Guardata.Proofs.BlockCache
import Guardata.Soundness.BoundedReads
import Guardata.Model.FileConflict
import Guardata.Proofs.FileConflict
import Guardata.Soundness.FileConflicts
import Guardata.Soundness.ReshapePublish
import Guardata.Model.ReencryptionNeed
import Guardata.Soundness.ReencryptionNeeds
import Guardata.Soundness.WorkspaceKeys
import Guardata.Model.Packing
import Guardata.Model.SignedSchemas
import Guardata.Proofs.Packing
import Guardata.Proofs.SignedSchemas
import Guardata.Proofs.DecodedData
import Guardata.Soundness.CleanDecoding
import Guardata.Soundness.DecodedChildren
import Guardata.Soundness.AcceptedFiles
import Guardata.ToMathlib.FiniteWalk
import Guardata.Model.ParentChain
import Guardata.Soundness.ParentWalks
import Guardata.Model.WorkspaceFile
import Guardata.Proofs.FileContents
import Guardata.Soundness.FileObjects
import Guardata.Model.ManifestCache
import Guardata.Soundness.CachedManifests
import Guardata.Model.DeviceIds
import Guardata.Soundness.DeviceIds
import Guardata.Model.EntryPaths
import Guardata.Proofs.EntryPaths
import Guardata.Soundness.NameRoundTrips
import Guardata.Model.Winify
import Guardata.Proofs.Escapes
import Guardata.Proofs.Winify
import Guardata.Proofs.WindowsPaths
import Guardata.Soundness.WindowsNames
import Guardata.Soundness.LegalNames
import Guardata.Model.ReadDirectory
import Guardata.Soundness.DirectoryListing
import Guardata.Soundness.ReencryptionBatches
import Guardata.Model.Raid1
import Guardata.Soundness.Raid1Reads
import Guardata.ToMathlib.LiveList
import Guardata.Model.EventBus
import Guardata.Soundness.EventDelivery
import Guardata.ToMathlib.PercentEncoding
import Guardata.ToMathlib.UrlParts
import Guardata.ToMathlib.Base32
import Guardata.Model.BackendAddr
import Guardata.Proofs.BackendAddr
import Guardata.Soundness.AddressUrls
import Guardata.Model.StartReencryption
import Guardata.ToMathlib.CachedLookUps
import Guardata.Proofs.CertificateCaches
import Guardata.Soundness.CachedCertificates
import Guardata.Soundness.ReencryptionStarts
import Guardata.Soundness.BlockWrites
import Guardata.Model.BlockStorage
import Guardata.Proofs.BlockStorage
import Guardata.Soundness.BlockEviction
import Guardata.ToMathlib.EdgeWalks
import Guardata.Model.FileTree
import Guardata.Proofs.WorkspaceView
import Guardata.Proofs.ParentLock
import Guardata.Soundness.FolderBookkeeping
import Guardata.Proofs.FileTreeCalls
import Guardata.Soundness.FileTrees
import Guardata.Machine.Feed
import Guardata.Model.BackendEvents
import Guardata.Model.Invitations
import Guardata.Model.Events
import Guardata.Proofs.Invitations
import Guardata.Proofs.Events
import Guardata.Soundness.RealmEvents
import Guardata.Soundness.MessageNotifications
import Guardata.Soundness.Invitations
import Guardata.ToMathlib.PoppedWalks
import Guardata.Model.SyncMonitor
import Guardata.Proofs.SyncMonitor
import Guardata.Proofs.SyncRounds
import Guardata.Soundness.SyncWakeups
import Guardata.Soundness.PendingChanges
import Guardata.Soundness.ConfinedEntries
import Guardata.Model.TransportPool
import Guardata.Soundness.TransportReplies
