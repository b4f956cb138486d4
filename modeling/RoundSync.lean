import RoundSync.Kernel.Href
import RoundSync.Kernel.LockRuns
import RoundSync.Kernel.Requests
import RoundSync.Kernel.LockDiscovery
import RoundSync.Kernel.Uploads
import RoundSync.QuarkDav.RoundTrip
import RoundSync.QuarkDav.Updates
import RoundSync.QuarkDav.Generations
import RoundSync.Provider.DocumentIds
import RoundSync.Rclone.ConfigImport
import RoundSync.Thumbnails.RangeSource
import RoundSync.Rclone.RemoteReference
import RoundSync.Rclone.ShownDirectory
import RoundSync.Explorer.NameOrder
import RoundSync.Services.NextOccurrence
import RoundSync.Quarkcookie.BothUploads
import RoundSync.Kernel.Transcoding
import RoundSync.Kernel.FullWalks
import RoundSync.Rclone.WrapperChains
import RoundSync.QuarkDav.RcloneNames
import RoundSync.Rclone.JobRuns
import RoundSync.WorkManager.EndNotifications
import RoundSync.Kernel.CacheRuns
import RoundSync.Kernel.CacheRaces
import RoundSync.Database.BackupRuns
import RoundSync.Database.PreferencesBackup
import RoundSync.Util.SyncLog
import RoundSync.Ffmpeg.FileCursor
import RoundSync.Thumbnails.Maintenance
import RoundSync.Thumbnails.Trims
import RoundSync.Thumbnails.StatisticsCallbacks
import RoundSync.Thumbnails.StatisticsAccuracy
import RoundSync.Thumbnails.Loading
import RoundSync.Thumbnails.Clears
import RoundSync.Thumbnails.StaleAnswers
import RoundSync.Activities.ImportAtomicity
import RoundSync.Services.AlarmRuns
import RoundSync.Services.TriggerTargets
import RoundSync.Safdav.MappedPaths
import RoundSync.Safdav.Moves
import RoundSync.Safdav.ThirdPartyTrees
import RoundSync.Quarkcookie.Parts
import RoundSync.Thumbnails.ArchiveExport
import RoundSync.Ffmpeg.FrameSelection
import RoundSync.Quarkcookie.CookieLine
import RoundSync.QuarkDav.NormalForms
import RoundSync.Kernel.LockTimeouts
import RoundSync.Thumbnails.DiskTrims
import RoundSync.Provider.IdAlgebra
import RoundSync.Provider.SortOrders
import RoundSync.Provider.FsState
import RoundSync.Util.LogFiles
import RoundSync.Rclone.InteractiveRunner
import RoundSync.Quarkcookie.Listing
import RoundSync.Data.BinaryFloats
import RoundSync.Database.PreferencesRoundTrip
import RoundSync.Database.PreferencesValidation
import RoundSync.Kernel.PropertyAccounts
import RoundSync.Safdav.Uploads
import RoundSync.Data.Worklist
import RoundSync.Services.ThumbnailPreGeneration
import RoundSync.RecyclerViewAdapters.DatabaseLists
import RoundSync.Data.KeyedLists
import RoundSync.RecyclerViewAdapters.SilentRefresh
import RoundSync.Text.Xml
import RoundSync.Safdav.Multistatus
import RoundSync.Data.Rasters
import RoundSync.Ffmpeg.RotatedCopy
import RoundSync.Fragments.RemoteFragment
import RoundSync.Fragments.PathStacks
import RoundSync.Fragments.SortChoice
import RoundSync.Rclone.ManagedStream
import RoundSync.Safdav.Listings
import RoundSync.Notifications.ReportRuns
import RoundSync.Kernel.ServerRuns
import RoundSync.QuarkDav.Convergence
import RoundSync.QuarkDav.CookieOrigins
import RoundSync.Fragments.ExplorerCache
