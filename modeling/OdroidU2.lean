import OdroidU2.Gps.SatelliteList
import OdroidU2.Gps.LocationCallback
import OdroidU2.Gps.NmeaCallback
import OdroidU2.Gps.SvStatusCallback
import OdroidU2.Gps.SessionLimits
import OdroidU2.Gps.StatusCallback
import OdroidU2.Gps.Cleanup
import OdroidU2.Gps.EmptyFields
import OdroidU2.Gps.FixMask
import OdroidU2.Gps.Descriptors
import OdroidU2.Gps.FixPosition
import OdroidU2.Gps.FixFlags
import OdroidU2.Gps.FixTimestamp
import OdroidU2.Gps.SatelliteCycle
import OdroidU2.Ota.Rerun
import OdroidU2.Ota.IncrementalNames
import OdroidU2.Ota.ItemRecords
import OdroidU2.Ota.BestSubtree
import OdroidU2.Ota.MetadataListing
import OdroidU2.Ota.PatchChecks
import OdroidU2.Ota.CacheSpace
import OdroidU2.Ota.ProhibitVerbatim
import OdroidU2.Ota.RestoredPaths
import OdroidU2.Ota.UnchangedFiles
import OdroidU2.Camera.PreviewBounds
import OdroidU2.Camera.BufferOwnership
import OdroidU2.Camera.BufferCount
import OdroidU2.Camera.Mappings
import OdroidU2.Camera.Descriptors
import OdroidU2.Camera.Locking
import OdroidU2.Camera.MemoryStream
import OdroidU2.Camera.HalModule
import OdroidU2.Camera.Yuv420sp
import OdroidU2.Camera.Samples
import OdroidU2.Gps.GpsTime
import OdroidU2.Gps.CompleteLines
import OdroidU2.Gps.Coordinates
import OdroidU2.Ota.Descendants
import OdroidU2.Camera.Messages
import OdroidU2.Camera.WindowStride
import OdroidU2.Camera.Acquired
import OdroidU2.Camera.Streaming
import OdroidU2.Ota.FullAgrees
import OdroidU2.Ota.Chain
import OdroidU2.Gps.ReaderThread
import OdroidU2.Camera.Delivery
import OdroidU2.Recovery.Release
import OdroidU2.Recovery.Font
import OdroidU2.Recovery.BootScript
