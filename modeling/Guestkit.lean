import Guestkit.Lib.Kahn
import Guestkit.Plan.Types
import Guestkit.Lib.HashMap
import Guestkit.Plan.TopoSort
import Guestkit.Lib.Fs.Ops
import Guestkit.Plan.Validate
import Guestkit.Plan.ExecutorLive
import Guestkit.Plan.Apply
import Guestkit.Plan.Execution
import Guestkit.Lib.Fs.Change
import Guestkit.Lib.Fs.Spec
import Guestkit.Plan.Rollback
import Guestkit.Guestfs.FileOps
import Guestkit.Lib.Fs.Reach
import Guestkit.Lib.Fs.Create
import Guestkit.Guestfs.Confine
import Guestkit.Guestfs.Device
import Guestkit.Guestfs.Mount
import Guestkit.Lib.Fs.Plain
import Guestkit.Guestfs.MountInside
import Guestkit.Guestfs.Drives
import Guestkit.Guestfs.Designate
import Guestkit.Guestfs.DeviceActs
import Guestkit.Guestfs.Reached
import Guestkit.Agent.Rpc
import Guestkit.Agent.Policy
import Guestkit.Agent.Runtime
import Guestkit.Agent.Qga
import Guestkit.Agent.Handler
import Guestkit.Agent.Checks
import Guestkit.Agent.Authorized
import Guestkit.Agent.Replay
import Guestkit.Boot.Checks
import Guestkit.Boot.Engine
import Guestkit.Migration.Checks
import Guestkit.Migration.Score
import Guestkit.Migration.Repair
import Guestkit.Migration.Token
import Guestkit.Agent.Cutover
import Guestkit.Agent.Freeze
import Guestkit.Agent.Snapshot
import Guestkit.Migration.Recovery
import Guestkit.Migration.Watchdogs
import Guestkit.Migration.Services
import Guestkit.Lib.Ledger
import Guestkit.Agent.SnapshotRuns
import Guestkit.Assurance.Passport
import Guestkit.Api.Saml
import Guestkit.Api.Session
import Guestkit.Api.GuestActionPolicy
import Guestkit.Api.GuestActions
import Guestkit.Lib.Shell
import Guestkit.Agent.Executor
import Guestkit.Agent.ExecutorIpc
import Guestkit.Agent.FileOps
import Guestkit.Agent.Updater
import Guestkit.Lib.Shell.Script
import Guestkit.Plan.Export
import Guestkit.Plan.ExportBash
import Guestkit.Plan.ExportSteps
import Guestkit.Fleet.Wave
import Guestkit.Guestfs.DeviceInventory
import Guestkit.Guestfs.Fstab
import Guestkit.Guestfs.SamAes
import Guestkit.Disk.Partition
import Guestkit.Disk.FileSystem
import Guestkit.Guestfs.Shrink
import Guestkit.Guestfs.ReadOnly
import Guestkit.Guestfs.Shutdown
import Guestkit.Guestfs.Umount
import Guestkit.Guestfs.MountTable
import Guestkit.Ebpf.Address
import Guestkit.Ebpf.Loader
import Guestkit.Ebpf.Agent
import Guestkit.Ebpf.Install
import Guestkit.Ebpf.Policing
import Guestkit.Agent.Frame
import Guestkit.Plan.Tally
import Guestkit.Migration.Planned
import Guestkit.Plan.FirstbootStage
import Guestkit.Agent.Telemetry
import Guestkit.Agent.Transport
import Guestkit.Worker.Executor
import Guestkit.Worker.Redis
import Guestkit.Evidence.Storage
import Guestkit.Evidence.SbomDiff
import Guestkit.Plan.FileEdit
import Guestkit.Plan.PackageStage
import Guestkit.Migration.FstabUuid
import Guestkit.Guestfs.GuestView
import Guestkit.Guestfs.GlobOps
