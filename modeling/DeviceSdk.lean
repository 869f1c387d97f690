import DeviceSdk.Types
import DeviceSdk.DevMap.Store
import DeviceSdk.DevMap.Wf
import DeviceSdk.DevMap.Replace
import DeviceSdk.DevMap.Linked
import DeviceSdk.Lib.Program
import DeviceSdk.Callback
import DeviceSdk.Interleave
import DeviceSdk.DevMap.Ownership
import DeviceSdk.CmdInfo
import DeviceSdk.Iot.Codec
import DeviceSdk.Transform
import DeviceSdk.Event
import DeviceSdk.Command.Defs
import DeviceSdk.Command.Put
import DeviceSdk.Command.Handler
import DeviceSdk.Command.Discipline
import DeviceSdk.Command.Admission
import DeviceSdk.Command.Agreement
import DeviceSdk.Opstate.Runs
import DeviceSdk.Opstate.Counter
import DeviceSdk.Opstate.Probe
import DeviceSdk.Watch.Discovered
import DeviceSdk.Bus.Topics
import DeviceSdk.Bus.Envelope
import DeviceSdk.Config.Override
import DeviceSdk.Config.Start
import DeviceSdk.Config.Populate
import DeviceSdk.Config.Update
import DeviceSdk.Keeper.Tree
import DeviceSdk.Lib.Double
import DeviceSdk.Keeper.Upload
import DeviceSdk.Keeper.Common
import DeviceSdk.Command.OnChange
import DeviceSdk.Secrets.File
import DeviceSdk.Lib.Word
import DeviceSdk.Transform.Exact
import DeviceSdk.Transform.Bitfield
import DeviceSdk.Profile.Read
import DeviceSdk.Transform.Defined
import DeviceSdk.Config.Driver
import DeviceSdk.Rest.Server
import DeviceSdk.Dto.Document
import DeviceSdk.Dto.Numbers
import DeviceSdk.Dto.Readers
import DeviceSdk.Dto.Writer
import DeviceSdk.Discovery.Requests
import DeviceSdk.Autoevent.Schedules
import DeviceSdk.Autoevent.Overlap
import DeviceSdk.Config.Period
import DeviceSdk.Transform.Validate
import DeviceSdk.Profile.Access
import DeviceSdk.Lib.Guarded
import DeviceSdk.Profile.Defined
import DeviceSdk.Dto.Compare
import DeviceSdk.Dto.Dup
import DeviceSdk.Event.Reduced
import DeviceSdk.Command.EventSize
import DeviceSdk.Rest.Body
import DeviceSdk.Keeper.Replies
import DeviceSdk.Keeper.Notify
import DeviceSdk.Keeper.Url
import DeviceSdk.Secrets.Insecure
import DeviceSdk.Command.Reqdata
import DeviceSdk.Command.Payload
import DeviceSdk.Config.Frame
import DeviceSdk.Secrets.Renewal
import DeviceSdk.Watch.Distinct
import DeviceSdk.Config.RemoteHosts
import DeviceSdk.Config.Typed
import DeviceSdk.Config.CmdLine
import DeviceSdk.Rest.Cors
import DeviceSdk.DevMap.HashMap
import DeviceSdk.DevMap.HashInv
import DeviceSdk.DevMap.Iterate
import DeviceSdk.DevMap.Clear
import DeviceSdk.Config.Options
import DeviceSdk.Lib.Utf8
import DeviceSdk.Parson.Accepts
import DeviceSdk.Parson.Encoding
import DeviceSdk.Rest.Auth
import DeviceSdk.DevMap.Mirror
