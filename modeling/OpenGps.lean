import OpenGps.Lib.Run
import OpenGps.Lib.CrashIo
import OpenGps.Lib.Ring
import OpenGps.Firmware.FixQueue
import OpenGps.Firmware.PersistentFixStore
import OpenGps.Firmware.StoreRules
import OpenGps.Firmware.StoreMachine
import OpenGps.Firmware.StoreDurability
import OpenGps.Firmware.StoreQueue
import OpenGps.Firmware.StorePowerCut
import OpenGps.Firmware.StoreFifo
import OpenGps.Firmware.Connectivity
import OpenGps.Backend.Hub
import OpenGps.Backend.HubDelivery
import OpenGps.Backend.Stream
import OpenGps.Backend.Locations
import OpenGps.Backend.LiveIngest
import OpenGps.Backend.LiveFeed
import OpenGps.Backend.Access
import OpenGps.Backend.ApiKeys
import OpenGps.Backend.SoleOwner
import OpenGps.Backend.LocationReads
import OpenGps.Backend.GuestShare
import OpenGps.Backend.PasswordReset
import OpenGps.Backend.ResetLinks
import OpenGps.Backend.ResetLimits
import OpenGps.Backend.ResetTokens
import OpenGps.Backend.Users
import OpenGps.Backend.SuperAdmin
import OpenGps.Backend.UserCreation
import OpenGps.Backend.GetOrCreate
import OpenGps.Frontend.DeviceSwitch
import OpenGps.Frontend.LiveView
import OpenGps.Lib.Binary64
import OpenGps.Lib.Rfc3339
import OpenGps.Backend.LocationBatch
import OpenGps.Firmware.LocationPayload
import OpenGps.Uplink.BatchUpload
import OpenGps.Firmware.SamplingPolicy
import OpenGps.Uplink.UploadContract
import OpenGps.Uplink.RecordedAt
import OpenGps.Backend.BatchAccounting
import OpenGps.Backend.Retransmission
import OpenGps.Lib.LineBuffer
import OpenGps.Firmware.HttpResponse
import OpenGps.Backend.LocationHistory
import OpenGps.Backend.LocationRoute
import OpenGps.Lib.Pairs
import OpenGps.Lib.Query
import OpenGps.Lib.Calls
import OpenGps.Backend.Reports
import OpenGps.Backend.PresenceTimer
import OpenGps.Firmware.MotionState
import OpenGps.Uplink.MainLoop
import OpenGps.Uplink.SamplingBaseline
import OpenGps.Firmware.StoreFailure
import OpenGps.Backend.ReportData
import OpenGps.Lib.Tally
import OpenGps.Backend.OverviewTotals
import OpenGps.Lib.Rfc3339Format
import OpenGps.Lib.Segments
import OpenGps.Frontend.LocationRoute
import OpenGps.Lib.Top
import OpenGps.Frontend.LiveOrder
import OpenGps.Lib.Xml
import OpenGps.Backend.GpxExport
import OpenGps.Firmware.VbatSag
import OpenGps.Firmware.Telemetry
import OpenGps.Lib.CallLog
import OpenGps.Firmware.Backoff
import OpenGps.Firmware.ChargeMode
import OpenGps.Frontend.ApiClient
import OpenGps.Frontend.AuthStore
import OpenGps.Lib.NewestRequest
import OpenGps.Frontend.LocationService
import OpenGps.Lib.FixedPoint
import OpenGps.Firmware.StoredPayload
import OpenGps.Lib.OutputBuffer
import OpenGps.Firmware.BatchJson
import OpenGps.Backend.GuestStreams
import OpenGps.Firmware.MetaCodec
import OpenGps.Lib.Crc
import OpenGps.Firmware.ErrorDetection
import OpenGps.Backend.RouteSampling
import OpenGps.Firmware.PowerProfile
import OpenGps.Lib.HttpMessage
import OpenGps.Firmware.HttpRequest
import OpenGps.Uplink.BatchTransport
import OpenGps.Backend.DeviceAuth
import OpenGps.Lib.EventStream
import OpenGps.Backend.StreamFrames
import OpenGps.Backend.ReportHealth
import OpenGps.Lib.Csv
import OpenGps.Lib.Decimal
import OpenGps.Backend.CsvExport
import OpenGps.Uplink.ExportedFix
import OpenGps.Lib.Handles
import OpenGps.Frontend.StreamConnection
import OpenGps.Backend.PasswordGate
import OpenGps.Uplink.Backlog
import OpenGps.Firmware.DeviceMode
