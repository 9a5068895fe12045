import TouchBar.Broker.Activations
import TouchBar.Broker.Admission
import TouchBar.Broker.Progress
import TouchBar.Hardware.DirectOutput
import TouchBar.Hardware.Recovery
import TouchBar.Hardware.SystemBar
import TouchBar.Hardware.TouchInput
import TouchBar.Hardware.VirtualKeyboard
import TouchBar.Hardware.WakeContacts
import TouchBar.Layout.Atomicity
import TouchBar.Model.Depth
import TouchBar.Model.History
import TouchBar.Policy.Update
import TouchBar.Protocol.HardwareIpc
import TouchBar.Protocol.Replies
import TouchBar.Session.Configure
import TouchBar.Session.LiveErrors
import TouchBar.Session.LiveUpdates
import TouchBar.Session.PackagedProfiles
import TouchBar.Session.Popover
import TouchBar.Session.Presentations
import TouchBar.Session.Splice
import TouchBar.Supervisor.Addresses
import TouchBar.Supervisor.Command
import TouchBar.Supervisor.Dbus
import TouchBar.Supervisor.Desktop
import TouchBar.Supervisor.EventRuns
import TouchBar.Supervisor.LocalFrames
import TouchBar.Supervisor.Quota
import TouchBar.Supervisor.Redirects
import TouchBar.Supervisor.ResourceStreams
import TouchBar.Supervisor.UploadContent
import TouchBar.Supervisor.AuditCrash
import TouchBar.Broker.Revocation
import TouchBar.Packages.Catalog
import TouchBar.Supervisor.QuotaTime
import TouchBar.Replay.Quota
import TouchBar.Ui.GestureRuns
import TouchBar.Client.Redraw
import TouchBar.Policy.StoreRuns
import TouchBar.Layout.Centring
import TouchBar.Layout.ShortestPrefix
import TouchBar.Layout.Totality
import TouchBar.Session.PackageLimits
import TouchBar.Packages.StoreErrors
import TouchBar.Session.CommitBudget
import TouchBar.Ui.Scrubber
import TouchBar.Lib.Cursor
import TouchBar.Rust.Split
import TouchBar.Session.HyprlandContext
import TouchBar.Packages.AssetBundle
import TouchBar.Rust.Numbers
import TouchBar.Session.ThemeConfig
import TouchBar.Supervisor.FileStream
import TouchBar.Lib.Overwrite
import TouchBar.Hardware.Scanout
import TouchBar.Packages.ArchiveTrip
import TouchBar.Lib.Arena
import TouchBar.View.Render
import TouchBar.Supervisor.ContextRead
